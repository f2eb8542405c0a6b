import Aetheris.Lib.Coroutine

namespace Aetheris.Lib

open Coroutine

variable {F : Type → Type 1} {ε α β W G : Type}

/-- What an effect may answer in a world, and the world it leaves. -/
abbrev Semantics (F : Type → Type 1) (ε W : Type) := {β : Type} → F β → W → Except ε β → W → Prop

variable (exec : Semantics F ε W) (starts : Coroutine F ε α → Prop)

/-- Coroutines in flight over one world: any of them takes its next await,
crashes where it stands, or is newly started. -/
inductive Step : W × List (Coroutine F ε α) → W × List (Coroutine F ε α) → Prop
  | advance {β : Type} {f : F β} {k w r w' before after} : exec f w r w' →
      Step (w, before ++ .await f k :: after) (w', before ++ k r :: after)
  | crash {w c before after} : Step (w, before ++ c :: after) (w, before ++ after)
  | start {w c pool} : starts c → Step (w, pool) (w, c :: pool)

def Reachable (w : W) (c : W × List (Coroutine F ε α)) : Prop :=
  Relation.ReflTransGen (Step exec starts) (w, []) c

/-- A coroutine that runs alone to its end is one of the interleavings. -/
theorem reachable_interp {env : {β : Type} → F β → W → Except ε β × W}
    (henv : ∀ {β : Type} (f : F β) (w : W), exec f w (env f w).1 (env f w).2) {w₀ w : W}
    {pool : List (Coroutine F ε α)} (h : Reachable exec starts w₀ (w, pool)) {c : Coroutine F ε α}
    (hc : starts c) :
    Reachable exec starts w₀ ((c.interp env w).2, finished (c.interp env w).1 :: pool) := by
  have hrun : ∀ (c : Coroutine F ε α) w, Reachable exec starts w₀ (w, c :: pool) →
      Reachable exec starts w₀ ((c.interp env w).2, finished (c.interp env w).1 :: pool) := by
    intro c
    induction c with
    | ret a => exact fun w h => h
    | raise e => exact fun w h => h
    | await f k ih =>
        intro w h
        have hstep : Step exec starts (w, [] ++ .await f k :: pool)
            ((env f w).2, [] ++ k (env f w).1 :: pool) := .advance (henv f w)
        exact ih (env f w).1 (env f w).2 (h.tail hstep)
  exact hrun c w (h.tail (.start hc))

/-- Any coroutine in flight may be the one that is carried on, as far as its effects
are what the world may do. -/
theorem reachable_advance {env : {β : Type} → F β → W → Except ε β × W} {check : {β : Type} → F β → W → Bool}
    (henv : ∀ {β : Type} (f : F β) (w : W), check f w = true → exec f w (env f w).1 (env f w).2) {w₀ w : W}
    {c : Coroutine F ε α} {before after : List (Coroutine F ε α)} (n : Nat)
    (h : Reachable exec starts w₀ (w, before ++ c :: after)) (hpass : c.passes env check n w = true) :
    Reachable exec starts w₀ ((c.advance env n w).2, before ++ (c.advance env n w).1 :: after) := by
  induction n generalizing c w with
  | zero => cases c <;> exact h
  | succ n ih =>
      cases c with
      | ret a => exact h
      | raise e => exact h
      | await f k =>
          obtain ⟨hf, hrest⟩ := (Bool.and_eq_true _ _).mp hpass
          exact ih (h.tail (.advance (henv f w hf))) hrest

theorem reachable_begin {env : {β : Type} → F β → W → Except ε β × W} {check : {β : Type} → F β → W → Bool}
    (henv : ∀ {β : Type} (f : F β) (w : W), check f w = true → exec f w (env f w).1 (env f w).2) {w₀ w : W}
    {c : Coroutine F ε α} {pool : List (Coroutine F ε α)} (n : Nat) (h : Reachable exec starts w₀ (w, pool))
    (hc : starts c) (hpass : c.passes env check n w = true) :
    Reachable exec starts w₀ ((c.advance env n w).2, (c.advance env n w).1 :: pool) := by
  have hstarted : Reachable exec starts w₀ (w, [] ++ c :: pool) := h.tail (.start hc)
  exact reachable_advance exec starts henv n hstarted hpass

/-- What the coroutines of a pool rely on: an invariant of the world, what each
of them knows in its own private state, and which private states may coexist. -/
structure Protocol (W G : Type) where
  inv : W → Prop
  holds : G → W → Prop
  apart : G → G → Prop
  apart_symm : ∀ {g h}, apart g h → apart h g

namespace Protocol

variable (P : Protocol W G)

structure Moves (g : G) (w : W) (g' : G) (w' : W) : Prop where
  inv : P.inv w'
  holds : P.holds g' w'
  frame : ∀ h, P.apart g h → P.holds h w → P.holds h w'
  apart : ∀ h, P.apart g h → P.holds h w → P.apart g' h

/-- From private state `g` the coroutine only makes moves of the protocol, and
ends in a result and a private state that satisfy `post`. -/
def Safe : Coroutine F ε α → G → (Except ε α → G → Prop) → Prop
  | ret a, g, post => post (.ok a) g
  | raise e, g, post => post (.error e) g
  | await f k, g, post => ∀ w r w', P.inv w → P.holds g w → exec f w r w' →
      ∃ g', P.Moves g w g' w' ∧ Safe (k r) g' post

variable {P exec} {g : G}

theorem Safe.mono {c : Coroutine F ε α} {post post' : Except ε α → G → Prop} (h : P.Safe exec c g post)
    (hpost : ∀ r g, post r g → post' r g) : P.Safe exec c g post' := by
  induction c generalizing g with
  | ret a => exact hpost _ _ h
  | raise e => exact hpost _ _ h
  | await f k ih =>
      intro w r w' hi hg hx
      obtain ⟨g', hm, hs⟩ := h w r w' hi hg hx
      exact ⟨g', hm, ih r hs⟩

theorem Safe.bind {c : Coroutine F ε α} {k : α → Coroutine F ε β} {post : Except ε β → G → Prop}
    (h : P.Safe exec c g (fun r g' =>
      match r with
      | .ok a => P.Safe exec (k a) g' post
      | .error e => post (.error e) g')) : P.Safe exec (c >>= k) g post := by
  change P.Safe exec (c.bind k) g post
  induction c generalizing g with
  | ret a => exact h
  | raise e => exact h
  | await f k' ih =>
      intro w r w' hi hg hx
      obtain ⟨g', hm, hs⟩ := h w r w' hi hg hx
      exact ⟨g', hm, ih r hs⟩

theorem Safe.caught {c : Coroutine F ε α} {post : Except ε (Except ε α) → G → Prop}
    (h : P.Safe exec c g (fun r g' => post (.ok r) g')) : P.Safe exec c.caught g post := by
  induction c generalizing g with
  | ret a => exact h
  | raise e => exact h
  | await f k ih =>
      intro w r w' hi hg hx
      obtain ⟨g', hm, hs⟩ := h w r w' hi hg hx
      exact ⟨g', hm, ih r hs⟩

theorem Safe.perform {f : F α} {post : Except ε α → G → Prop}
    (h : ∀ w r w', P.inv w → P.holds g w → exec f w r w' → ∃ g', P.Moves g w g' w' ∧ post r g') :
    P.Safe exec (perform f) g post := by
  intro w r w' hi hg hx
  obtain ⟨g', hm, hp⟩ := h w r w' hi hg hx
  refine ⟨g', hm, ?_⟩
  cases r <;> exact hp

variable (P exec)

/-- Every coroutine in flight has a private state it is safe from, and these
coexist. What it ends in satisfies `post`. -/
def Delivers (post : Except ε α → Prop) (w : W) (pool : List (Coroutine F ε α)) : Prop :=
  ∃ threads : List (Coroutine F ε α × G), threads.map Prod.fst = pool ∧
    (∀ t ∈ threads, P.holds t.2 w ∧ P.Safe exec t.1 t.2 (fun r _ => post r)) ∧
    threads.Pairwise (fun t u => P.apart t.2 u.2)

/-- A private state that knows nothing and coexists with every other, safe to start from. -/
def Begins (post : Except ε α → Prop) (c : Coroutine F ε α) : Prop :=
  ∃ g, (∀ w, P.holds g w) ∧ (∀ h, P.apart g h) ∧ P.Safe exec c g (fun r _ => post r)

/-- It begins, whatever it ends in. -/
def Idle (c : Coroutine F ε α) : Prop :=
  ∃ g, (∀ w, P.holds g w) ∧ (∀ h, P.apart g h) ∧ P.Safe exec c g (fun _ _ => True)

variable {P exec starts} {post : Except ε α → Prop}

theorem delivers_advance {w w' : W} {f : F β} {k : Except ε β → Coroutine F ε α} {r : Except ε β}
    {before after : List (Coroutine F ε α)} (hi : P.inv w)
    (h : P.Delivers exec post w (before ++ .await f k :: after)) (hx : exec f w r w') :
    P.inv w' ∧ P.Delivers exec post w' (before ++ k r :: after) := by
  obtain ⟨threads, hpool, hsafe, hapart⟩ := h
  obtain ⟨pre, rest, rfl, rfl, hrest⟩ := List.map_eq_append_iff.mp hpool
  obtain ⟨⟨c, g⟩, suffix, rfl, hc, rfl⟩ := List.map_eq_cons_iff.mp hrest
  cases hc
  obtain ⟨hg, hs⟩ := hsafe _ (List.mem_append_right pre (List.mem_cons_self ..))
  obtain ⟨g', hm, hs'⟩ := hs w r w' hi hg hx
  obtain ⟨hpre, hpost, hcross⟩ := List.pairwise_append.mp hapart
  obtain ⟨hgpost, hpost⟩ := List.pairwise_cons.mp hpost
  have hgpre : ∀ t ∈ pre, P.apart g t.2 :=
    fun t ht => P.apart_symm (hcross t ht _ (List.mem_cons_self ..))
  have hholds : ∀ t, t ∈ pre ∨ t ∈ suffix → P.holds t.2 w ∧ P.Safe exec t.1 t.2 (fun r _ => post r) := by
    rintro t (ht | ht)
    · exact hsafe t (List.mem_append_left _ ht)
    · exact hsafe t (List.mem_append_right pre (List.mem_cons_of_mem _ ht))
  have hdisjoint : ∀ t, t ∈ pre ∨ t ∈ suffix → P.apart g t.2 := by
    rintro t (ht | ht)
    · exact hgpre t ht
    · exact hgpost t ht
  refine ⟨hm.inv, pre ++ (k r, g') :: suffix, by simp, ?_, ?_⟩
  · intro t ht
    have hframe : ∀ t, t ∈ pre ∨ t ∈ suffix → P.holds t.2 w' ∧ P.Safe exec t.1 t.2 (fun r _ => post r) :=
      fun t ht => ⟨hm.frame t.2 (hdisjoint t ht) (hholds t ht).1, (hholds t ht).2⟩
    rcases List.mem_append.mp ht with ht | ht
    · exact hframe t (.inl ht)
    · rcases List.mem_cons.mp ht with rfl | ht
      · exact ⟨hm.holds, hs'⟩
      · exact hframe t (.inr ht)
  · have happly : ∀ t, t ∈ pre ∨ t ∈ suffix → P.apart g' t.2 :=
      fun t ht => hm.apart t.2 (hdisjoint t ht) (hholds t ht).1
    refine List.pairwise_append.mpr ⟨hpre, List.pairwise_cons.mpr ⟨fun t ht => happly t (.inr ht), hpost⟩, ?_⟩
    intro t ht u hu
    rcases List.mem_cons.mp hu with rfl | hu
    · exact P.apart_symm (happly t (.inl ht))
    · exact hcross t ht u (List.mem_cons_of_mem _ hu)

theorem delivers_crash {w : W} {c : Coroutine F ε α} {before after : List (Coroutine F ε α)}
    (h : P.Delivers exec post w (before ++ c :: after)) : P.Delivers exec post w (before ++ after) := by
  obtain ⟨threads, hpool, hsafe, hapart⟩ := h
  obtain ⟨pre, rest, rfl, rfl, hrest⟩ := List.map_eq_append_iff.mp hpool
  obtain ⟨t, suffix, rfl, _, rfl⟩ := List.map_eq_cons_iff.mp hrest
  have hsub : (pre ++ suffix).Sublist (pre ++ t :: suffix) :=
    (List.sublist_cons_self t suffix).append_left pre
  exact ⟨pre ++ suffix, by simp, fun u hu => hsafe u (hsub.subset hu), hapart.sublist hsub⟩

theorem delivers_start {w : W} {c : Coroutine F ε α} {pool : List (Coroutine F ε α)}
    (h : P.Delivers exec post w pool) (hc : P.Begins exec post c) : P.Delivers exec post w (c :: pool) := by
  obtain ⟨threads, rfl, hsafe, hapart⟩ := h
  obtain ⟨g, hg, hfree, hs⟩ := hc
  refine ⟨(c, g) :: threads, rfl, ?_, List.pairwise_cons.mpr ⟨fun t _ => hfree t.2, hapart⟩⟩
  intro t ht
  rcases List.mem_cons.mp ht with rfl | ht
  · exact ⟨hg w, hs⟩
  · exact hsafe t ht

theorem step_delivers (hstart : ∀ c : Coroutine F ε α, starts c → P.Begins exec post c)
    {a b : W × List (Coroutine F ε α)} (h : Step exec starts a b)
    (ha : P.inv a.1 ∧ P.Delivers exec post a.1 a.2) : P.inv b.1 ∧ P.Delivers exec post b.1 b.2 := by
  cases h with
  | advance hx => exact delivers_advance ha.1 ha.2 hx
  | crash => exact ⟨ha.1, delivers_crash ha.2⟩
  | start hc => exact ⟨ha.1, delivers_start ha.2 (hstart _ hc)⟩

theorem reachable_delivers (hstart : ∀ c : Coroutine F ε α, starts c → P.Begins exec post c) {w₀ : W}
    (h₀ : P.inv w₀) {c : W × List (Coroutine F ε α)} (h : Reachable exec starts w₀ c) :
    P.inv c.1 ∧ P.Delivers exec post c.1 c.2 := by
  induction h with
  | refl => exact ⟨h₀, [], rfl, fun _ ht => absurd ht List.not_mem_nil, .nil⟩
  | tail _ hs ih => exact step_delivers hstart hs ih

theorem run_delivers (hstart : ∀ c : Coroutine F ε α, starts c → P.Begins exec post c)
    {a b : W × List (Coroutine F ε α)} (h : Relation.ReflTransGen (Step exec starts) a b)
    (ha : P.inv a.1 ∧ P.Delivers exec post a.1 a.2) : P.inv b.1 ∧ P.Delivers exec post b.1 b.2 := by
  induction h with
  | refl => exact ha
  | tail _ hs ih => exact step_delivers hstart hs ih

theorem step_holds {a b : W × List (Coroutine F ε α)} (h : Step exec starts a b)
    (ha : P.inv a.1 ∧ P.Delivers exec post a.1 a.2) {g : G} (hfree : ∀ h, P.apart h g) (hg : P.holds g a.1) :
    P.holds g b.1 := by
  cases h with
  | advance hx =>
      obtain ⟨hi, threads, hpool, hsafe, _⟩ := ha
      obtain ⟨pre, rest, rfl, _, hrest⟩ := List.map_eq_append_iff.mp hpool
      obtain ⟨⟨c, h⟩, suffix, rfl, hc, _⟩ := List.map_eq_cons_iff.mp hrest
      cases hc
      obtain ⟨hh, hs⟩ := hsafe _ (List.mem_append_right pre (List.mem_cons_self ..))
      obtain ⟨h', hm, _⟩ := hs _ _ _ hi hh hx
      exact hm.frame g (hfree h) hg
  | crash => exact hg
  | start _ => exact hg

/-- What can be known of the world beside every coroutine stays true through any run. -/
theorem run_holds (hstart : ∀ c : Coroutine F ε α, starts c → P.Begins exec post c)
    {a b : W × List (Coroutine F ε α)} (h : Relation.ReflTransGen (Step exec starts) a b)
    (ha : P.inv a.1 ∧ P.Delivers exec post a.1 a.2) {g : G} (hfree : ∀ h, P.apart h g) (hg : P.holds g a.1) :
    P.holds g b.1 := by
  induction h with
  | refl => exact hg
  | tail hrun hs ih => exact step_holds hs (run_delivers hstart hrun ha) hfree ih

/-- The invariant holds at every point of every interleaving. -/
theorem reachable_inv (hstart : ∀ c : Coroutine F ε α, starts c → P.Idle exec c) {w₀ : W}
    (h₀ : P.inv w₀) {c : W × List (Coroutine F ε α)} (h : Reachable exec starts w₀ c) : P.inv c.1 := by
  have hall : P.inv c.1 ∧ P.Delivers exec (fun _ => True) c.1 c.2 := reachable_delivers hstart h₀ h
  exact hall.1

/-- Whatever a coroutine returned in an interleaving is as promised. -/
theorem Delivers.returned {w : W} {pool : List (Coroutine F ε α)} (h : P.Delivers exec post w pool) {a : α}
    (ha : .ret a ∈ pool) : post (.ok a) := by
  obtain ⟨threads, rfl, hsafe, _⟩ := h
  obtain ⟨⟨c, g⟩, ht, hc⟩ := List.mem_map.mp ha
  cases hc
  exact (hsafe _ ht).2

theorem Delivers.raised {w : W} {pool : List (Coroutine F ε α)} (h : P.Delivers exec post w pool) {e : ε}
    (he : .raise e ∈ pool) : post (.error e) := by
  obtain ⟨threads, rfl, hsafe, _⟩ := h
  obtain ⟨⟨c, g⟩, ht, hc⟩ := List.mem_map.mp he
  cases hc
  exact (hsafe _ ht).2

section Knowing

variable (P) in
/-- One more private state, that knows nothing, beside private states that all coexist. -/
def knowing : Protocol W (Option G) where
  inv := P.inv
  holds g w := ∀ h ∈ g, P.holds h w
  apart _ _ := True
  apart_symm _ := trivial

theorem Safe.knowing (hfree : ∀ g h, P.apart g h) {c : Coroutine F ε α} {post : Except ε α → G → Prop}
    (h : P.Safe exec c g post) : P.knowing.Safe exec c (some g) fun r g' => ∃ h ∈ g', post r h := by
  induction c generalizing g with
  | ret a => exact ⟨g, rfl, h⟩
  | raise e => exact ⟨g, rfl, h⟩
  | await f k ih =>
      intro w r w' hi hg hx
      obtain ⟨g', hm, hs⟩ := h w r w' hi (hg g rfl) hx
      refine ⟨some g', ⟨hm.inv, ?_, fun h _ hh h' hmem => ?_, fun _ _ _ => trivial⟩, ih r hs⟩
      · rintro _ ⟨⟩
        exact hm.holds
      · exact hm.frame h' (hfree g h') (hh h' hmem)

/-- The first await is from where nothing is known. -/
theorem Begins.knowing (hfree : ∀ g h, P.apart g h) {f : F β} {k : Except ε β → Coroutine F ε α}
    (h : ∀ w r w', P.inv w → exec f w r w' → ∃ g', P.inv w' ∧ P.holds g' w' ∧ (∀ h, P.holds h w → P.holds h w') ∧
      P.Safe exec (k r) g' fun r _ => post r) : P.knowing.Begins exec post (.await f k) := by
  refine ⟨none, fun _ => nofun, fun _ => trivial, fun w r w' hi _ hx => ?_⟩
  obtain ⟨g', hi', hg', hframe, hs⟩ := h w r w' hi hx
  refine ⟨some g', ⟨hi', ?_, fun h _ hh h' hmem => hframe h' (hh h' hmem), fun _ _ _ => trivial⟩, ?_⟩
  · rintro _ ⟨⟩
    exact hg'
  · exact (hs.knowing hfree).mono fun _ _ ⟨_, _, hpost⟩ => hpost

end Knowing

end Protocol

section Performs

variable {exec starts} {Q : {β : Type} → F β → Prop} {I : W → Prop}

/-- What every effect that may be performed keeps, every interleaving keeps. -/
theorem reachable_performs (hstart : ∀ c : Coroutine F ε α, starts c → Performs Q c)
    (hkeep : ∀ {β : Type} (f : F β) w r w', Q f → I w → exec f w r w' → I w') {w₀ : W} (h₀ : I w₀)
    {c : W × List (Coroutine F ε α)} (h : Reachable exec starts w₀ c) : I c.1 := by
  have hall : I c.1 ∧ ∀ d ∈ c.2, Performs Q d := by
    induction h with
    | refl => exact ⟨h₀, fun _ hd => absurd hd List.not_mem_nil⟩
    | tail _ hstep ih =>
        cases hstep with
        | advance hx =>
            obtain ⟨hi, hpool⟩ := ih
            have hawait := hpool _ (List.mem_append_right _ (List.mem_cons_self ..))
            refine ⟨hkeep _ _ _ _ hawait.1 hi hx, fun d hd => ?_⟩
            rcases List.mem_append.mp hd with hd | hd
            · exact hpool d (List.mem_append_left _ hd)
            · rcases List.mem_cons.mp hd with rfl | hd
              · exact hawait.2 _
              · exact hpool d (List.mem_append_right _ (List.mem_cons_of_mem _ hd))
        | crash =>
            refine ⟨ih.1, fun d hd => ih.2 d ?_⟩
            rcases List.mem_append.mp hd with hd | hd
            · exact List.mem_append_left _ hd
            · exact List.mem_append_right _ (List.mem_cons_of_mem _ hd)
        | start hc =>
            refine ⟨ih.1, fun d hd => ?_⟩
            rcases List.mem_cons.mp hd with rfl | hd
            · exact hstart _ hc
            · exact ih.2 d hd
  exact hall.1

end Performs

end Aetheris.Lib
