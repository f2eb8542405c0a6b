import Aetheris.Lib.Noting

namespace Aetheris.Lib.Coroutine

variable {F : Type → Type 1} {ε α β W : Type}

section

variable (exec : Semantics F ε W)

/-- A coroutine that runs alone, from a world to what it ends in and the world it leaves. -/
def Runs : Coroutine F ε α → W → Except ε α → W → Prop
  | ret a, w, r, w' => r = .ok a ∧ w' = w
  | raise e, w, r, w' => r = .error e ∧ w' = w
  | await f k, w, r, w' => ∃ x w₁, exec f w x w₁ ∧ (k x).Runs w₁ r w'

/-- A run, with what the coroutine still had to do each time it came to an effect, and at its end. -/
def Passes : Coroutine F ε α → W → List (Coroutine F ε α) → Except ε α → W → Prop
  | ret a, w, stands, r, w' => stands = [ret a] ∧ r = .ok a ∧ w' = w
  | raise e, w, stands, r, w' => stands = [raise e] ∧ r = .error e ∧ w' = w
  | await f k, w, stands, r, w' =>
      ∃ x w₁ later, stands = await f k :: later ∧ exec f w x w₁ ∧ (k x).Passes w₁ later r w'

/-- However its effects are answered, what the coroutine ends in satisfies `post`. -/
def Always : Coroutine F ε α → W → (Except ε α → W → Prop) → Prop
  | ret a, w, post => post (.ok a) w
  | raise e, w, post => post (.error e) w
  | await f k, w, post => ∀ x w', exec f w x w' → (k x).Always w' post

end

/-- Somewhere in a run the coroutine was about to call another. -/
def Calls (c : Coroutine F ε β) (stands : List (Coroutine F ε α)) : Prop :=
  ∃ k : β → Coroutine F ε α, (c >>= k) ∈ stands

variable {exec : Semantics F ε W} {post post' : Except ε α → W → Prop} {w w' : W}

theorem Always.of_runs {c : Coroutine F ε α} {r : Except ε α} (h : c.Always exec w post) (hr : c.Runs exec w r w') :
    post r w' := by
  induction c generalizing w with
  | ret a =>
      obtain ⟨rfl, rfl⟩ := hr
      exact h
  | raise e =>
      obtain ⟨rfl, rfl⟩ := hr
      exact h
  | await f k ih =>
      obtain ⟨x, w₁, hx, hk⟩ := hr
      exact ih x (h x w₁ hx) hk

theorem Always.mono {c : Coroutine F ε α} (h : c.Always exec w post) (hpost : ∀ r w', post r w' → post' r w') :
    c.Always exec w post' := by
  induction c generalizing w with
  | ret a => exact hpost _ _ h
  | raise e => exact hpost _ _ h
  | await f k ih => exact fun x w' hx => ih x (h x w' hx)

theorem Always.bind {c : Coroutine F ε α} {k : α → Coroutine F ε β} {post : Except ε β → W → Prop}
    (h : c.Always exec w fun r w' =>
      match r with
      | .ok a => (k a).Always exec w' post
      | .error e => post (.error e) w') : (c >>= k).Always exec w post := by
  change (c.bind k).Always exec w post
  induction c generalizing w with
  | ret a => exact h
  | raise e => exact h
  | await f k' ih => exact fun x w' hx => ih x (h x w' hx)

theorem Always.caught {c : Coroutine F ε α} {post : Except ε (Except ε α) → W → Prop}
    (h : c.Always exec w fun r w' => post (.ok r) w') : c.caught.Always exec w post := by
  induction c generalizing w with
  | ret a => exact h
  | raise e => exact h
  | await f k ih => exact fun x w' hx => ih x (h x w' hx)

theorem Always.perform {f : F α} (h : ∀ r w', exec f w r w' → post r w') : (perform f).Always exec w post := by
  intro r w' hx
  cases r <;> exact h _ _ hx

/-- Where neither its answer nor its world matters, a coroutine is passed over. -/
theorem Always.after {c : Coroutine F ε α} {k : α → Coroutine F ε β} {post : Except ε β → W → Prop}
    (herror : ∀ e w', post (.error e) w') (hk : ∀ a w', (k a).Always exec w' post) : (c >>= k).Always exec w post := by
  change (c.bind k).Always exec w post
  induction c generalizing w with
  | ret a => exact hk a w
  | raise e => exact herror e w
  | await f k' ih => exact fun x w' _ => ih x

/-- What always holds where its effects are performed as they are holds where others carry them out. -/
theorem Always.expand {H : Type → Type 1} {exec : Semantics H ε W} {wrap : {β : Type} → F β → H β}
    {c : Coroutine F ε α} (h : c.Always (fun f => exec (wrap f)) w post) :
    (c.expand fun f => Coroutine.perform (wrap f)).Always exec w post := by
  induction c generalizing w with
  | ret a => exact h
  | raise e => exact h
  | await f k ih =>
      intro r w' hx
      cases r with
      | ok a => exact ih _ (h _ w' hx)
      | error e => exact ih _ (h _ w' hx)

/-- What each of its effects keeps, the coroutine keeps. -/
theorem always_of_performs {Q : {β : Type} → F β → Prop} {I : W → Prop}
    (hkeep : ∀ {β : Type} (f : F β) w r w', Q f → I w → exec f w r w' → I w') {c : Coroutine F ε α}
    (hc : c.Performs Q) (hi : I w) : c.Always exec w fun _ w' => I w' := by
  induction c generalizing w with
  | ret a => exact hi
  | raise e => exact hi
  | await f k ih => exact fun x w' hx => ih x (hc.2 x) (hkeep f w x w' hc.1 hi hx)

/-- One way for its effects to be answered is one of its runs. -/
theorem runs_interp {env : {β : Type} → F β → W → Except ε β × W}
    (henv : ∀ {β : Type} (f : F β) (w : W), exec f w (env f w).1 (env f w).2) (c : Coroutine F ε α) (w : W) :
    c.Runs exec w (c.interp env w).1 (c.interp env w).2 := by
  induction c generalizing w with
  | ret a => exact ⟨rfl, rfl⟩
  | raise e => exact ⟨rfl, rfl⟩
  | await f k ih => exact ⟨_, _, henv f w, ih _ _⟩

/-- The check lets every effect of the run through, each where it is performed. -/
def meets (env : {β : Type} → F β → W → Except ε β × W) (check : {β : Type} → F β → W → Bool) : Coroutine F ε α → W → Bool
  | ret _, _ | raise _, _ => true
  | await f k, w => check f w && (k (env f w).1).meets env check (env f w).2

theorem runs_of_meets {env : {β : Type} → F β → W → Except ε β × W} {check : {β : Type} → F β → W → Bool}
    (henv : ∀ {β : Type} (f : F β) (w : W), check f w = true → exec f w (env f w).1 (env f w).2) {c : Coroutine F ε α}
    {w : W} (h : c.meets env check w = true) : c.Runs exec w (c.interp env w).1 (c.interp env w).2 := by
  induction c generalizing w with
  | ret a => exact ⟨rfl, rfl⟩
  | raise e => exact ⟨rfl, rfl⟩
  | await f k ih =>
      obtain ⟨hf, hrest⟩ := (Bool.and_eq_true _ _).mp h
      exact ⟨_, _, henv f w hf, ih _ hrest⟩

theorem mem_of_passes {c : Coroutine F ε α} {stands : List (Coroutine F ε α)} {r : Except ε α}
    (h : c.Passes exec w stands r w') : c ∈ stands := by
  cases c with
  | ret a =>
      obtain ⟨rfl, _, _⟩ := h
      exact List.mem_singleton_self _
  | raise e =>
      obtain ⟨rfl, _, _⟩ := h
      exact List.mem_singleton_self _
  | await f k =>
      obtain ⟨x, w₁, later, rfl, _, _⟩ := h
      exact List.mem_cons_self

/-- What a coroutine still has to do performs no other effects than the whole. -/
theorem performs_of_passes {Q : {β : Type} → F β → Prop} {c : Coroutine F ε α} {stands : List (Coroutine F ε α)}
    {r : Except ε α} (hc : c.Performs Q) (h : c.Passes exec w stands r w') : ∀ d ∈ stands, d.Performs Q := by
  induction c generalizing w stands with
  | ret a =>
      obtain ⟨rfl, _, _⟩ := h
      exact fun d hd => List.mem_singleton.mp hd ▸ hc
  | raise e =>
      obtain ⟨rfl, _, _⟩ := h
      exact fun d hd => List.mem_singleton.mp hd ▸ hc
  | await f k ih =>
      obtain ⟨x, w₁, later, rfl, _, hlater⟩ := h
      intro d hd
      rcases List.mem_cons.mp hd with rfl | hd
      · exact hc
      · exact ih x (hc.2 x) hlater d hd

/-- The runs of a coroutine are those that pass somewhere. -/
theorem exists_passes {c : Coroutine F ε α} {r : Except ε α} (h : c.Runs exec w r w') :
    ∃ stands, c.Passes exec w stands r w' := by
  induction c generalizing w with
  | ret a => exact ⟨_, rfl, h⟩
  | raise e => exact ⟨_, rfl, h⟩
  | await f k ih =>
      obtain ⟨x, w₁, hx, hk⟩ := h
      obtain ⟨later, hlater⟩ := ih x hk
      exact ⟨_, x, w₁, later, rfl, hx, hlater⟩

end Aetheris.Lib.Coroutine
