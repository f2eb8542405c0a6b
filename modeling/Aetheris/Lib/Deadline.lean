import Aetheris.Lib.Noting
import Mathlib.Algebra.Order.Group.Defs

namespace Aetheris.Lib.Coroutine

/-- An effect that was awaited, what it answered if that was waited for, and for how long. -/
structure Waited (F : Type → Type 1) (ε T : Type) : Type 1 where
  {β : Type}
  effect : F β
  answer : Option (Except ε β)
  lasted : T

/-- What an effect may answer, and how long that may take. -/
abbrev Pace (F : Type → Type 1) (ε T : Type) := {β : Type} → F β → Except ε β → T → Prop

variable {F : Type → Type 1} {ε α β T : Type} [AddCommGroup T] [LinearOrder T] (pace : Pace F ε T) (deadline : T)

/-- A run that is cut off where the deadline finds it waiting: what was awaited, the
outcome unless it was cut off, and when it ended. -/
inductive RunsBy : T → Coroutine F ε α → List (Waited F ε T) → Option (Except ε α) → T → Prop
  | ret {t a} : RunsBy t (ret a) [] (some (.ok a)) t
  | raise {t e} : RunsBy t (raise e) [] (some (.error e)) t
  | answered {t t' d out waits} {β : Type} {f : F β} {k r} : pace f r d → t + d ≤ deadline →
      RunsBy (t + d) (k r) waits out t' → RunsBy t (await f k) (⟨f, some r, d⟩ :: waits) out t'
  | expired {t d} {β : Type} {f : F β} {k r} : pace f r d → deadline ≤ t + d →
      RunsBy t (await f k) [⟨f, none, deadline - t⟩] none deadline

variable {pace deadline} {t t' : T} {c : Coroutine F ε α} {waits : List (Waited F ε T)} {out : Option (Except ε α)}

theorem RunsBy.ends_by (h : RunsBy pace deadline t c waits out t') (ht : t ≤ deadline) :
    t' ≤ deadline ∧ (out = none → t' = deadline) := by
  induction h with
  | ret => exact ⟨ht, nofun⟩
  | raise => exact ⟨ht, nofun⟩
  | answered _ hd _ ih => exact ih hd
  | expired _ _ => exact ⟨le_rfl, fun _ => rfl⟩

theorem RunsBy.lasted (h : RunsBy pace deadline t c waits out t') : t' = t + (waits.map Waited.lasted).sum := by
  induction h with
  | ret => simp
  | raise => simp
  | answered _ _ _ ih => rw [ih, List.map_cons, List.sum_cons, add_assoc]
  | expired _ _ => simp

theorem RunsBy.of_finished {r : Except ε α} (h : RunsBy pace deadline t (finished r) waits out t') :
    waits = [] ∧ out = some r ∧ t' = t := by
  cases r with
  | ok a => cases h; exact ⟨rfl, rfl, rfl⟩
  | error e => cases h; exact ⟨rfl, rfl, rfl⟩

/-- A sequence is cut off in its first part, or runs the second from where the first ended. -/
theorem RunsBy.of_bind {k : α → Coroutine F ε β} {out : Option (Except ε β)}
    (h : RunsBy pace deadline t (c >>= k) waits out t') :
    (RunsBy pace deadline t c waits none t' ∧ out = none) ∨
      (∃ e, RunsBy pace deadline t c waits (some (.error e)) t' ∧ out = some (.error e)) ∨
        ∃ a first rest t₁, RunsBy pace deadline t c first (some (.ok a)) t₁ ∧
          RunsBy pace deadline t₁ (k a) rest out t' ∧ waits = first ++ rest := by
  change RunsBy pace deadline t (c.bind k) waits out t' at h
  induction c generalizing t waits with
  | ret a => exact .inr (.inr ⟨a, [], waits, t, .ret, h, rfl⟩)
  | raise e => cases h; exact .inr (.inl ⟨e, .raise, rfl⟩)
  | await f k' ih =>
      cases h with
      | expired hp hd => exact .inl ⟨.expired hp hd, rfl⟩
      | answered hp hd hrun =>
          rcases ih _ hrun with ⟨hc, hout⟩ | ⟨e, hc, hout⟩ | ⟨a, first, rest, t₁, hc, hk, rfl⟩
          · exact .inl ⟨.answered hp hd hc, hout⟩
          · exact .inr (.inl ⟨e, .answered hp hd hc, hout⟩)
          · exact .inr (.inr ⟨a, _ :: first, rest, t₁, .answered hp hd hc, hk, rfl⟩)

theorem RunsBy.of_perform {f : F α} (h : RunsBy pace deadline t (perform f) waits out t') :
    ∃ r d, pace f r d ∧ ((t + d ≤ deadline ∧ waits = [⟨f, some r, d⟩] ∧ out = some r ∧ t' = t + d) ∨
      (deadline ≤ t + d ∧ waits = [⟨f, none, deadline - t⟩] ∧ out = none ∧ t' = deadline)) := by
  cases h with
  | expired hp hd => exact ⟨_, _, hp, .inr ⟨hd, rfl, rfl, rfl⟩⟩
  | answered hp hd hrun =>
      rename_i d _ r
      refine ⟨r, d, hp, .inl ⟨hd, ?_⟩⟩
      cases r with
      | ok a => cases hrun; exact ⟨rfl, rfl, rfl⟩
      | error e => cases hrun; exact ⟨rfl, rfl, rfl⟩

end Aetheris.Lib.Coroutine
