import Aetheris.Lib.Interleaving

namespace Aetheris.Lib

namespace Coroutine

variable {F G : Type → Type 1} {ε α β N : Type}

/-- Each effect carried out by a coroutine of its own. -/
def expand (handle : {β : Type} → F β → Coroutine G ε β) : Coroutine F ε α → Coroutine G ε α
  | ret a => ret a
  | raise e => raise e
  | await f k => (handle f).caught.bind fun r => (k r).expand handle

section

variable (handle : {β : Type} → F β → Coroutine G ε β)

theorem bind_assoc {γ : Type} (c : Coroutine F ε α) (k : α → Coroutine F ε β) (k' : β → Coroutine F ε γ) :
    (c.bind k).bind k' = c.bind fun a => (k a).bind k' := by
  induction c with
  | ret a => rfl
  | raise e => rfl
  | await f k'' ih => exact congrArg (await f) (funext fun r => ih r)

theorem bind_caught_finished (c : Coroutine F ε α) : c.caught.bind finished = c := by
  induction c with
  | ret a => rfl
  | raise e => rfl
  | await f k ih => exact congrArg (await f) (funext fun r => ih r)

theorem expand_bind (c : Coroutine F ε α) (k : α → Coroutine F ε β) :
    (c >>= k).expand handle = c.expand handle >>= fun a => (k a).expand handle := by
  change (c.bind k).expand handle = (c.expand handle).bind fun a => (k a).expand handle
  induction c with
  | ret a => rfl
  | raise e => rfl
  | await f k' ih =>
      rw [bind, expand, expand, bind_assoc]
      exact congrArg _ (funext fun r => ih r)

theorem expand_perform (f : F α) : (perform f).expand handle = handle f := by
  have hfinished : (perform f).expand handle = (handle f).caught.bind finished :=
    congrArg (handle f).caught.bind (funext fun r => by cases r <;> rfl)
  rw [hfinished, bind_caught_finished]

theorem caught_caught_bind (c : Coroutine F ε α) (k : Except ε α → Coroutine F ε β) :
    (c.caught.bind k).caught = c.caught.bind fun r => (k r).caught := by
  induction c with
  | ret a => rfl
  | raise e => rfl
  | await f k' ih => exact congrArg (await f) (funext fun r => ih r)

theorem expand_caught (c : Coroutine F ε α) : c.caught.expand handle = (c.expand handle).caught := by
  induction c with
  | ret a => rfl
  | raise e => rfl
  | await f k ih =>
      rw [caught, expand, expand, caught_caught_bind]
      exact congrArg _ (funext fun r => ih r)

end

/-- An effect, with what its coroutine had noted before it. -/
structure Noted (N : Type) (F : Type → Type 1) (β : Type) : Type 1 where
  notes : List N
  effect : F β

/-- A coroutine that notes what its effects are answered. -/
def noting (note : {β : Type} → F β → Except ε β → List N) : List N → Coroutine F ε α → Coroutine (Noted N F) ε α
  | _, ret a => ret a
  | _, raise e => raise e
  | notes, await f k => await ⟨notes, f⟩ fun r => (k r).noting note (notes ++ note f r)

end Coroutine

namespace Protocol

open Coroutine

variable {F : Type → Type 1} {ε α β N W G : Type} (P : Protocol W G)
  (exec : Semantics (Noted N F) ε W) (note : {β : Type} → F β → Except ε β → List N)

/-- Safe as it takes its notes. -/
def Careful : Coroutine F ε α → List N → G → (Except ε α → List N → G → Prop) → Prop
  | ret a, notes, g, post => post (.ok a) notes g
  | raise e, notes, g, post => post (.error e) notes g
  | await f k, notes, g, post => ∀ w r w', P.inv w → P.holds g w → exec ⟨notes, f⟩ w r w' →
      ∃ g', P.Moves g w g' w' ∧ Careful (k r) (notes ++ note f r) g' post

variable {P exec note} {notes : List N} {g : G}

theorem Careful.mono {c : Coroutine F ε α} {post post' : Except ε α → List N → G → Prop}
    (h : P.Careful exec note c notes g post) (hpost : ∀ r notes g, post r notes g → post' r notes g) :
    P.Careful exec note c notes g post' := by
  induction c generalizing notes g with
  | ret a => exact hpost _ _ _ h
  | raise e => exact hpost _ _ _ h
  | await f k ih =>
      intro w r w' hi hg hx
      obtain ⟨g', hm, hs⟩ := h w r w' hi hg hx
      exact ⟨g', hm, ih r hs⟩

theorem Careful.bind {c : Coroutine F ε α} {k : α → Coroutine F ε β} {post : Except ε β → List N → G → Prop}
    (h : P.Careful exec note c notes g (fun r notes' g' =>
      match r with
      | .ok a => P.Careful exec note (k a) notes' g' post
      | .error e => post (.error e) notes' g')) : P.Careful exec note (c >>= k) notes g post := by
  change P.Careful exec note (c.bind k) notes g post
  induction c generalizing notes g with
  | ret a => exact h
  | raise e => exact h
  | await f k' ih =>
      intro w r w' hi hg hx
      obtain ⟨g', hm, hs⟩ := h w r w' hi hg hx
      exact ⟨g', hm, ih r hs⟩

theorem Careful.caught {c : Coroutine F ε α} {post : Except ε (Except ε α) → List N → G → Prop}
    (h : P.Careful exec note c notes g (fun r notes' g' => post (.ok r) notes' g')) :
    P.Careful exec note c.caught notes g post := by
  induction c generalizing notes g with
  | ret a => exact h
  | raise e => exact h
  | await f k ih =>
      intro w r w' hi hg hx
      obtain ⟨g', hm, hs⟩ := h w r w' hi hg hx
      exact ⟨g', hm, ih r hs⟩

theorem Careful.perform {f : F α} {post : Except ε α → List N → G → Prop}
    (h : ∀ w r w', P.inv w → P.holds g w → exec ⟨notes, f⟩ w r w' →
      ∃ g', P.Moves g w g' w' ∧ post r (notes ++ note f r) g') : P.Careful exec note (perform f) notes g post := by
  intro w r w' hi hg hx
  obtain ⟨g', hm, hp⟩ := h w r w' hi hg hx
  refine ⟨g', hm, ?_⟩
  cases r <;> exact hp

theorem Careful.safe {c : Coroutine F ε α} {post : Except ε α → G → Prop}
    (h : P.Careful exec note c notes g fun r _ g' => post r g') : P.Safe exec (c.noting note notes) g post := by
  induction c generalizing notes g with
  | ret a => exact h
  | raise e => exact h
  | await f k ih =>
      intro w r w' hi hg hx
      obtain ⟨g', hm, hs⟩ := h w r w' hi hg hx
      exact ⟨g', hm, ih r hs⟩

/-- What is safe under the effects that its own are carried out by is safe. -/
theorem Safe.expand {H : Type → Type 1} {exec : Semantics H ε W} {wrap : {β : Type} → F β → H β}
    {c : Coroutine F ε α} {g : G} {post : Except ε α → G → Prop} (h : P.Safe (fun f => exec (wrap f)) c g post) :
    P.Safe exec (c.expand fun f => Coroutine.perform (wrap f)) g post := by
  induction c generalizing g with
  | ret a => exact h
  | raise e => exact h
  | await f k ih =>
      intro w r w' hi hg hx
      obtain ⟨g', hm, hs⟩ := h w r w' hi hg hx
      refine ⟨g', hm, ?_⟩
      cases r with
      | ok a => exact ih _ hs
      | error e => exact ih _ hs

end Protocol

end Aetheris.Lib
