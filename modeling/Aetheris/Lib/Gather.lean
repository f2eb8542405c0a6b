import Aetheris.Lib.Expansion
import Mathlib.Data.Set.List

namespace Aetheris.Lib

open Coroutine

/-- An effect, or a use of the permits that coroutines share. -/
inductive Limited (F : Type → Type 1) : Type → Type 1
  | acquire : Limited F Unit
  | release : Limited F Unit
  | inner {β : Type} (f : F β) : Limited F β

namespace Gather

variable {F : Type → Type 1} {ε α β W : Type}

/-- Coroutines that run together over one world: any of them takes its next await. -/
inductive Together (exec : Semantics F ε W) : W × List (Coroutine F ε α) → W × List (Coroutine F ε α) → Prop
  | advance {β : Type} {f : F β} {k w r w' before after} : exec f w r w' →
      Together exec (w, before ++ .await f k :: after) (w', before ++ k r :: after)

section Termination

/-- One of them goes on with some answer. -/
inductive Moves : List (Coroutine F ε α) → List (Coroutine F ε α) → Prop
  | answer {β : Type} {f : F β} {k} (r : Except ε β) {before after} :
      Moves (before ++ .await f k :: after) (before ++ k r :: after)

theorem moves_cons {c : Coroutine F ε α} {rest pool : List (Coroutine F ε α)} (h : Moves (c :: rest) pool) :
    (∃ (β : Type) (f : F β) (k : Except ε β → Coroutine F ε α) (r : Except ε β), c = .await f k ∧ pool = k r :: rest) ∨
      ∃ later, Moves rest later ∧ pool = c :: later := by
  generalize hstart : c :: rest = start at h
  obtain @⟨γ, f, k, r, before, after⟩ := h
  cases before with
  | nil =>
      obtain ⟨rfl, rfl⟩ := List.cons.inj hstart
      exact .inl ⟨γ, f, k, r, rfl, rfl⟩
  | cons b before =>
      obtain ⟨rfl, rfl⟩ := List.cons.inj hstart
      exact .inr ⟨_, .answer r, rfl⟩

theorem acc_cons_of_still {c : Coroutine F ε α} (hstill : ∀ {β : Type} (f : F β) k, c ≠ .await f k)
    {rest : List (Coroutine F ε α)} (h : Acc (fun b a => Moves a b) rest) :
    Acc (fun b a => Moves a b) (c :: rest) := by
  induction h with
  | intro rest _ ih =>
      refine .intro _ fun pool hmove => ?_
      rcases moves_cons hmove with ⟨γ, f, k, r, hc, _⟩ | ⟨later, hlater, rfl⟩
      · exact absurd hc (hstill f k)
      · exact ih later hlater

/-- A coroutine is a tree, so beside others that come to an end it comes to its own. -/
theorem acc_cons (c : Coroutine F ε α) {rest : List (Coroutine F ε α)} (h : Acc (fun b a => Moves a b) rest) :
    Acc (fun b a => Moves a b) (c :: rest) := by
  induction c generalizing rest with
  | ret a => exact acc_cons_of_still (fun _ _ hc => by cases hc) h
  | raise e => exact acc_cons_of_still (fun _ _ hc => by cases hc) h
  | await f k ihc =>
      induction h with
      | intro rest hrest ih =>
          refine .intro _ fun pool hmove => ?_
          rcases moves_cons hmove with ⟨γ, f', k', r, hc, rfl⟩ | ⟨later, hlater, rfl⟩
          · cases hc
            exact ihc r (.intro rest hrest)
          · exact ih later hlater

theorem acc_pool (pool : List (Coroutine F ε α)) : Acc (fun b a => Moves a b) pool := by
  induction pool with
  | nil =>
      refine .intro _ fun pool hmove => ?_
      generalize hstart : [] = start at hmove
      obtain @⟨γ, f, k, r, before, after⟩ := hmove
      cases before <;> cases hstart
  | cons c rest ih => exact acc_cons c ih

/-- However they are answered, what runs together comes to an end. -/
theorem together_wellFounded (exec : Semantics F ε W) :
    WellFounded fun b a : W × List (Coroutine F ε α) => Together exec a b := by
  have hmoves : ∀ {a b : W × List (Coroutine F ε α)}, Together exec a b → Moves a.2 b.2 := by
    rintro _ _ ⟨_⟩
    exact .answer _
  exact Subrelation.wf (fun {_ _} h => hmoves h) (InvImage.wf Prod.snd ⟨acc_pool⟩)

end Termination

section Permits

/-- The body of one who holds a permit, which is given back however the body ends. -/
def held (c : Coroutine F ε α) : Coroutine (Limited F) ε α := do
  let r ← (c.expand fun f => perform (.inner f)).caught
  perform .release
  finished r

def withPermit (c : Coroutine F ε α) : Coroutine (Limited F) ε α := do
  perform .acquire
  held c

theorem held_map (c : Coroutine F ε α) (g : α → β) : (do return g (← held c)) = held (do return g (← c)) := by
  induction c with
  | ret a =>
      change Coroutine.await Limited.release _ = Coroutine.await Limited.release _
      congr 1
      funext r
      cases r <;> rfl
  | raise e =>
      change Coroutine.await Limited.release _ = Coroutine.await Limited.release _
      congr 1
      funext r
      cases r <;> rfl
  | await f k ih =>
      change Coroutine.await (Limited.inner f) _ = Coroutine.await (Limited.inner f) _
      congr 1
      funext r
      cases r with
      | ok b => exact ih (.ok b)
      | error e => exact ih (.error e)

/-- What is made of the outcome does not need the permit. -/
theorem withPermit_map (c : Coroutine F ε α) (g : α → β) :
    (do return g (← withPermit c)) = withPermit (do return g (← c)) := by
  change Coroutine.await Limited.acquire _ = Coroutine.await Limited.acquire _
  congr 1
  funext r
  cases r with
  | ok _ => exact held_map c g
  | error e => rfl

/-- One who finds no permit waits until there is one. -/
def limited (exec : Semantics F ε W) : Semantics (Limited F) ε (W × Nat)
  | _, .acquire, w, r, w' => r = .ok () ∧ w = (w'.1, w'.2 + 1)
  | _, .release, w, r, w' => r = .ok () ∧ w' = (w.1, w.2 + 1)
  | _, .inner f, w, r, w' => exec f w.1 r w'.1 ∧ w'.2 = w.2

/-- What is left of a coroutine once the world has given it some answers. -/
inductive Left (exec : Semantics F ε W) : Coroutine F ε α → Coroutine F ε α → Prop
  | refl (c : Coroutine F ε α) : Left exec c c
  | answered {c : Coroutine F ε α} {β : Type} {f : F β} {k : Except ε β → Coroutine F ε α} {w r w'} :
      Left exec c (.await f k) → exec f w r w' → Left exec c (k r)

theorem left_finished {exec : Semantics F ε W} {r : Except ε α} {d : Coroutine F ε α} (h : Left exec (finished r) d) :
    d = finished r := by
  induction h with
  | refl => rfl
  | answered _ _ ih => cases r <;> cases ih

theorem left_await {exec : Semantics F ε W} {f : F β} {k : Except ε β → Coroutine F ε α} {d : Coroutine F ε α}
    (h : Left exec (.await f k) d) : d = .await f k ∨ ∃ w r w', exec f w r w' ∧ Left exec (k r) d := by
  induction h with
  | refl => exact .inl rfl
  | answered _ hx ih =>
      rcases ih with hawait | ⟨w, r, w', hfirst, hleft⟩
      · cases hawait
        exact .inr ⟨_, _, _, hx, .refl _⟩
      · exact .inr ⟨w, r, w', hfirst, hleft.answered hx⟩

/-- Where a coroutine that needs a permit stands. -/
inductive Phase (F : Type → Type 1) (ε α : Type) : Type 1
  | queued (c : Coroutine F ε α)
  | holding (d : Coroutine F ε α)
  | released (r : Except ε α)

namespace Phase

def code : Phase F ε α → Coroutine (Limited F) ε α
  | queued c => withPermit c
  | holding d => held d
  | released r => finished r

def holds : Phase F ε α → Bool
  | holding _ => true
  | _ => false

/-- It has come this far from `c`. -/
def From (exec : Semantics F ε W) (c : Coroutine F ε α) : Phase F ε α → Prop
  | queued c' => c' = c
  | holding d => Left exec c d
  | released r => Left exec c (finished r)

end Phase

/-- One awaits an answer, not a permit. -/
def asking : Coroutine (Limited F) ε α → Bool
  | .await (.inner _) _ => true
  | _ => false

/-- The permits are with those that hold them or free, and each has come from its own body. -/
def Shared (exec : Semantics F ε W) (permits : Nat) (bodies : List (Coroutine F ε α)) (w : W × Nat)
    (pool : List (Coroutine (Limited F) ε α)) : Prop :=
  ∃ threads : List (Coroutine F ε α × Phase F ε α), threads.map Prod.fst = bodies ∧
    threads.map (fun t => t.2.code) = pool ∧ (∀ t ∈ threads, t.2.From exec t.1) ∧
    w.2 + threads.countP (fun t => t.2.holds) = permits

variable {exec : Semantics F ε W} {permits : Nat} {bodies : List (Coroutine F ε α)}

theorem shared_start (w : W) : Shared exec permits bodies (w, permits) (bodies.map withPermit) := by
  refine ⟨bodies.map fun c => (c, .queued c), by simp [Function.comp_def], by simp [Function.comp_def, Phase.code],
    ?_, ?_⟩
  · intro t ht
    obtain ⟨c, _, rfl⟩ := List.mem_map.mp ht
    exact rfl
  · have hnone : (bodies.map fun c => (c, Phase.queued c)).countP (fun t => t.2.holds) = 0 := by
      rw [List.countP_map]
      exact List.countP_eq_zero.mpr fun _ _ => Bool.false_ne_true
    rw [hnone]
    rfl

/-- What one of them may do next, by where it stands. -/
theorem phase_step {p : Phase F ε α} {c : Coroutine F ε α} (hp : Phase.From exec c p) {f : Limited F β}
    {k : Except ε β → Coroutine (Limited F) ε α} (hcode : p.code = .await f k) {w w' : W × Nat} {r : Except ε β}
    (hx : limited exec f w r w') :
    ∃ p', k r = p'.code ∧ Phase.From exec c p' ∧ w'.2 + p'.holds.toNat = w.2 + p.holds.toNat := by
  cases p with
  | queued c' =>
      cases hcode
      obtain ⟨rfl, rfl⟩ := hx
      exact ⟨.holding c', rfl, hp ▸ .refl c', rfl⟩
  | holding d =>
      cases d with
      | ret a =>
          cases hcode
          obtain ⟨rfl, rfl⟩ := hx
          exact ⟨.released (.ok a), rfl, hp, rfl⟩
      | raise e =>
          cases hcode
          obtain ⟨rfl, rfl⟩ := hx
          exact ⟨.released (.error e), rfl, hp, rfl⟩
      | await g kd =>
          cases hcode
          obtain ⟨hg, hsame⟩ := hx
          refine ⟨.holding (kd r), ?_, hp.answered hg, congrArg (· + 1) hsame⟩
          cases r <;> rfl
  | released x => cases x <;> cases hcode

theorem together_acquire (w : W) (free : Nat) (before : List (Coroutine (Limited F) ε α)) (c : Coroutine F ε α)
    (after : List (Coroutine (Limited F) ε α)) :
    Together (limited exec) ((w, free + 1), before ++ withPermit c :: after) ((w, free), before ++ held c :: after) :=
  .advance (r := .ok ()) ⟨rfl, rfl⟩

theorem shared_advance {f : Limited F β} {k : Except ε β → Coroutine (Limited F) ε α} {w w' : W × Nat} {r : Except ε β}
    {before after : List (Coroutine (Limited F) ε α)} (hs : Shared exec permits bodies w (before ++ .await f k :: after))
    (hx : limited exec f w r w') : Shared exec permits bodies w' (before ++ k r :: after) := by
  obtain ⟨threads, rfl, hpool, hfrom, hcount⟩ := hs
  obtain ⟨pre, rest, rfl, rfl, hrest⟩ := List.map_eq_append_iff.mp hpool
  obtain ⟨⟨c, p⟩, suffix, rfl, hp, rfl⟩ := List.map_eq_cons_iff.mp hrest
  obtain ⟨p', hcode, hfrom', hpermits⟩ := phase_step (hfrom (c, p) (List.mem_append_right pre List.mem_cons_self)) hp hx
  refine ⟨pre ++ (c, p') :: suffix, by simp, by simp [hcode], ?_, ?_⟩
  · intro t ht
    rcases List.mem_append.mp ht with ht | ht
    · exact hfrom t (List.mem_append_left _ ht)
    · rcases List.mem_cons.mp ht with rfl | ht
      · exact hfrom'
      · exact hfrom t (List.mem_append_right pre (List.mem_cons_of_mem _ ht))
  · rw [List.countP_append, List.countP_cons] at hcount ⊢
    cases hbefore : p.holds <;> cases hafter : p'.holds <;> simp [hbefore, hafter] at hcount hpermits ⊢ <;> omega

/-- However they interleave, the permits are accounted for. -/
theorem shared_run {a b : (W × Nat) × List (Coroutine (Limited F) ε α)}
    (h : Relation.ReflTransGen (Together (limited exec)) a b) (ha : Shared exec permits bodies a.1 a.2) :
    Shared exec permits bodies b.1 b.2 := by
  induction h with
  | refl => exact ha
  | tail _ hstep ih =>
      obtain ⟨hx⟩ := hstep
      exact shared_advance ih hx

theorem holds_of_asking {p : Phase F ε α} (h : asking p.code = true) : p.holds = true := by
  cases p with
  | queued c => exact absurd h Bool.false_ne_true
  | holding d => rfl
  | released r => cases r <;> exact absurd h Bool.false_ne_true

/-- Never more of them await an answer than there are permits. -/
theorem Shared.countP_asking {w : W × Nat} {pool : List (Coroutine (Limited F) ε α)}
    (h : Shared exec permits bodies w pool) : pool.countP asking ≤ permits := by
  obtain ⟨threads, rfl, rfl, _, hcount⟩ := h
  have hle : (threads.map fun t => t.2.code).countP asking ≤ threads.countP fun t => t.2.holds := by
    rw [List.countP_map]
    exact List.countP_mono_left fun t _ ht => holds_of_asking ht
  omega

theorem finished_injective : Function.Injective (finished : Except ε α → Coroutine F ε α) := by
  intro r r' h
  cases r <;> cases r' <;> cases h <;> rfl

theorem eq_released {p : Phase F ε α} {r : Except ε α} (h : p.code = finished r) : p = .released r := by
  cases p with
  | queued c => cases r <;> cases h
  | holding d => cases d <;> cases r <;> cases h
  | released x => exact congrArg Phase.released (finished_injective h)

/-- What all of them have come to is what each came to from its own body. -/
theorem Shared.results {w : W × Nat} {results : List (Except ε α)}
    (h : Shared exec permits bodies w (results.map finished)) :
    List.Forall₂ (fun c r => Left exec c (finished r)) bodies results := by
  obtain ⟨threads, rfl, hpool, hfrom, _⟩ := h
  have hended : List.Forall₂ (fun t r => t.2.code = finished r) threads results := by
    have hsame : List.Forall₂ (fun c d => c = d) (threads.map fun t => t.2.code) (results.map finished) :=
      hpool ▸ List.forall₂_refl _
    exact List.forall₂_map_right_iff.mp (List.forall₂_map_left_iff.mp hsame)
  refine List.forall₂_map_left_iff.mpr (((List.forall₂_and_left threads results).mpr ⟨hfrom, hended⟩).imp ?_)
  rintro ⟨c, p⟩ r ⟨hp, hcode⟩
  rw [eq_released hcode] at hp
  exact hp

theorem Shared.ended {w : W × Nat} {pool : List (Coroutine (Limited F) ε α)} (h : Shared exec permits bodies w pool)
    {r : Except ε α} (hr : finished r ∈ pool) : ∃ c ∈ bodies, Left exec c (finished r) := by
  obtain ⟨threads, rfl, rfl, hfrom, _⟩ := h
  obtain ⟨⟨c, p⟩, ht, hcode⟩ := List.mem_map.mp hr
  have hp := hfrom (c, p) ht
  rw [eq_released hcode] at hp
  exact ⟨c, List.mem_map_of_mem ht, hp⟩

/-- One that holds a permit can go on, and so can each of them where a permit is free. -/
theorem phase_ready (p : Phase F ε α) {w : W × Nat} (hcan : p.holds = true ∨ 0 < w.2)
    (hanswers : ∀ {β : Type} (f : F β) w, ∃ r w', exec f w r w') :
    (∃ r, p = .released r) ∨ ∃ (β : Type) (f : Limited F β) (k : Except ε β → Coroutine (Limited F) ε α) (r : _) (w' : _),
      p.code = .await f k ∧ limited exec f w r w' := by
  cases p with
  | queued c =>
      obtain ⟨v, n⟩ := w
      obtain ⟨n, rfl⟩ : ∃ m, n = m + 1 := Nat.exists_eq_succ_of_ne_zero (hcan.resolve_left Bool.false_ne_true).ne'
      exact .inr ⟨_, .acquire, _, .ok (), (v, n), rfl, rfl, rfl⟩
  | holding d =>
      cases d with
      | ret a => exact .inr ⟨_, .release, _, .ok (), _, rfl, rfl, rfl⟩
      | raise e => exact .inr ⟨_, .release, _, .ok (), _, rfl, rfl, rfl⟩
      | await f k =>
          obtain ⟨r, w', hx⟩ := hanswers f w.1
          exact .inr ⟨_, .inner f, _, r, (w', w.2), rfl, hx, rfl⟩
  | released r => exact .inl ⟨r, rfl⟩

/-- Where there is a permit and the world answers, one of them goes on until all of them have ended. -/
theorem Shared.progress {w : W × Nat} {pool : List (Coroutine (Limited F) ε α)}
    (h : Shared exec permits bodies w pool) (hpermits : 0 < permits)
    (hanswers : ∀ {β : Type} (f : F β) w, ∃ r w', exec f w r w') :
    (∃ next, Together (limited exec) (w, pool) next) ∨ ∃ results : List (Except ε α), pool = results.map finished := by
  obtain ⟨threads, rfl, rfl, _, hcount⟩ := h
  by_cases hready : ∃ t ∈ threads, (t.2.holds = true ∨ 0 < w.2) ∧ ∀ r, t.2 ≠ .released r
  · obtain ⟨t, ht, hcan, hnot⟩ := hready
    obtain ⟨pre, suffix, rfl⟩ := List.append_of_mem ht
    obtain ⟨r, hr⟩ | ⟨β, f, k, r, w', hcode, hx⟩ := phase_ready t.2 hcan hanswers
    · exact absurd hr (hnot r)
    · refine .inl ⟨(w', pre.map (fun t => t.2.code) ++ k r :: suffix.map fun t => t.2.code), ?_⟩
      rw [List.map_append, List.map_cons, hcode]
      exact .advance hx
  · push Not at hready
    have hnone : threads.countP (fun t => t.2.holds) = 0 := by
      refine List.countP_eq_zero.mpr fun t ht hholds => ?_
      obtain ⟨r, hr⟩ := hready t ht (.inl hholds)
      rw [hr] at hholds
      exact Bool.false_ne_true hholds
    have hended : ∀ d ∈ threads.map fun t => t.2.code,
        d ∈ Set.range (finished : Except ε α → Coroutine (Limited F) ε α) := by
      intro d hd
      obtain ⟨t, ht, rfl⟩ := List.mem_map.mp hd
      obtain ⟨r, hr⟩ := hready t ht (.inr (by omega))
      exact ⟨r, by rw [hr]; rfl⟩
    obtain ⟨results, hresults⟩ := (Set.range_list_map finished).ge hended
    exact .inr ⟨results, hresults.symm⟩

/-- All of them run together until they have all ended, or one of them has raised. -/
def Gathers (exec : Semantics F ε W) (bodies : List (Coroutine F ε α)) (w : W) (r : Except ε (List α)) (w' : W) : Prop :=
  ∃ pool, Relation.ReflTransGen (Together exec) (w, bodies) (w', pool) ∧
    match r with
    | .ok results => pool = results.map .ret
    | .error e => .raise e ∈ pool

end Permits

end Gather

end Aetheris.Lib
