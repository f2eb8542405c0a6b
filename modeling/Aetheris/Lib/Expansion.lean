import Aetheris.Lib.Noting
import Mathlib.Data.List.Forall2

namespace Aetheris.Lib.Coroutine

variable {F G : Type → Type 1} {ε α β γ V W : Type} (exec : Semantics F ε W) (micro : Semantics G ε V)
  (sees : V → W → Prop)

/-- However its steps are answered, they amount to the effect, which is done in one
of them or after the last: the others do not show. -/
def Amounts (f : F β) : Coroutine G ε β → Prop
  | ret a => ∀ v w, sees v w → ∃ w', exec f w (.ok a) w' ∧ sees v w'
  | raise e => ∀ v w, sees v w → ∃ w', exec f w (.error e) w' ∧ sees v w'
  | await g k => ∀ v w r v', micro g v r v' → sees v w →
      sees v' w ∧ Amounts f (k r) ∨ ∃ x w', k r = finished x ∧ exec f w x w' ∧ sees v' w'

variable (handle : {β : Type} → F β → Coroutine G ε β)

/-- The one stands where the other does: it has carried out some of the next
effect's steps, or may have passed over effects that take none. -/
def Stands : Coroutine F ε α → Coroutine G ε α → Prop
  | await f k, d => ∃ e, Amounts exec micro sees f e ∧ d = e.caught.bind fun r => (k r).expand handle
  | ret a, d => d = ret a
  | raise e, d => d = raise e

variable {exec micro sees handle} (hamounts : ∀ {β : Type} (f : F β), Amounts exec micro sees f (handle f))

include hamounts in
theorem stands_expand (c : Coroutine F ε α) : Stands exec micro sees handle c (c.expand handle) := by
  cases c with
  | ret a => rfl
  | raise e => rfl
  | await f k => exact ⟨handle f, hamounts f, rfl⟩

variable {starts : Coroutine F ε α → Prop}

include hamounts in
theorem stands_advance {c : Coroutine F ε α} {g : G γ} {k' : Except ε γ → Coroutine G ε α} {v v' : V} {w : W}
    {r : Except ε γ} (hs : Stands exec micro sees handle c (await g k')) (hx : micro g v r v') (hv : sees v w)
    (before after : List (Coroutine F ε α)) :
    ∃ c' w', Relation.ReflTransGen (Step exec starts) (w, before ++ c :: after) (w', before ++ c' :: after) ∧
      sees v' w' ∧ Stands exec micro sees handle c' (k' r) := by
  induction c generalizing w with
  | ret a => cases hs
  | raise e => cases hs
  | await f k ih =>
      -- an effect that needs no more steps is caught up on first
      have hcaughtUp : ∀ x w₁, exec f w x w₁ → sees v w₁ → await g k' = (k x).expand handle →
          ∃ c' w', Relation.ReflTransGen (Step exec starts) (w, before ++ await f k :: after)
            (w', before ++ c' :: after) ∧ sees v' w' ∧ Stands exec micro sees handle c' (k' r) := by
        intro x w₁ hf hv₁ he
        obtain ⟨c', w', hrun, hv', hs'⟩ := ih x (he ▸ stands_expand hamounts (k x)) hv₁
        exact ⟨c', w', .head (.advance hf) hrun, hv', hs'⟩
      obtain ⟨e, he, hd⟩ := hs
      cases e with
      | ret a =>
          obtain ⟨w₁, hf, hv₁⟩ := he v w hv
          exact hcaughtUp (.ok a) w₁ hf hv₁ hd
      | raise e =>
          obtain ⟨w₁, hf, hv₁⟩ := he v w hv
          exact hcaughtUp (.error e) w₁ hf hv₁ hd
      | await g' k'' =>
          cases hd
          rcases he v w r v' hx hv with ⟨hv', hrest⟩ | ⟨x, w', hfinished, hf, hv'⟩
          · exact ⟨await f k, w, .refl, hv', k'' r, hrest, rfl⟩
          · refine ⟨k x, w', .single (.advance hf), hv', ?_⟩
            dsimp only
            rw [hfinished]
            cases x <;> exact stands_expand hamounts _

theorem exists_append_of_forall₂ {A B : Type 1} {R : A → B → Prop} {l : List A} {before after : List B} {d : B}
    (h : List.Forall₂ R l (before ++ d :: after)) :
    ∃ pre c suffix, l = pre ++ c :: suffix ∧ List.Forall₂ R pre before ∧ R c d ∧ List.Forall₂ R suffix after := by
  induction before generalizing l with
  | nil =>
      obtain ⟨c, suffix, hc, hsuffix, rfl⟩ := List.forall₂_cons_right_iff.mp h
      exact ⟨[], c, suffix, rfl, .nil, hc, hsuffix⟩
  | cons b before ih =>
      obtain ⟨a, rest, ha, hrest, rfl⟩ := List.forall₂_cons_right_iff.mp h
      obtain ⟨pre, c, suffix, rfl, hpre, hc, hsuffix⟩ := ih hrest
      exact ⟨a :: pre, c, suffix, rfl, .cons ha hpre, hc, hsuffix⟩

/-- Every interleaving of the steps is seen as an interleaving of the effects. -/
theorem reachable_expand (hamounts : ∀ {β : Type} (f : F β), Amounts exec micro sees f (handle f)) {v₀ : V} {w₀ : W}
    (h₀ : sees v₀ w₀) {a : V × List (Coroutine G ε α)}
    (h : Reachable micro (fun d => ∃ c, starts c ∧ d = c.expand handle) v₀ a) :
    ∃ w pool, Reachable exec starts w₀ (w, pool) ∧ sees a.1 w ∧
      List.Forall₂ (Stands exec micro sees handle) pool a.2 := by
  induction h with
  | refl => exact ⟨w₀, [], .refl, h₀, .nil⟩
  | tail _ hstep ih =>
      obtain ⟨w, pool, hreach, hv, hpool⟩ := ih
      cases hstep with
      | advance hx =>
          obtain ⟨pre, c, suffix, rfl, hpre, hc, hsuffix⟩ := exists_append_of_forall₂ hpool
          obtain ⟨c', w', hrun, hv', hc'⟩ := stands_advance hamounts hc hx hv pre suffix
          exact ⟨w', _, hreach.trans hrun, hv', List.rel_append hpre (.cons hc' hsuffix)⟩
      | crash =>
          obtain ⟨pre, c, suffix, rfl, hpre, _, hsuffix⟩ := exists_append_of_forall₂ hpool
          exact ⟨w, _, hreach.tail .crash, hv, List.rel_append hpre hsuffix⟩
      | start hc =>
          obtain ⟨c, hstarts, rfl⟩ := hc
          exact ⟨w, _, hreach.tail (.start hstarts), hv, .cons (stands_expand hamounts c) hpool⟩

end Aetheris.Lib.Coroutine
