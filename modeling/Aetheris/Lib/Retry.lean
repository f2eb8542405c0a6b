import Aetheris.Lib.Deadline
import Mathlib.Algebra.Order.Monoid.Unbundled.Pow
import Mathlib.Tactic.GCongr

namespace Aetheris.Lib.Coroutine

/-- What an answer comes to: a result, or a fault that may pass. -/
inductive Verdict (φ α : Type)
  | done (result : Except φ α)
  | again (fault : φ)

def Verdict.result {φ α : Type} : Verdict φ α → Except φ α
  | done result => result
  | again fault => .error fault

def Verdict.isAgain {φ α : Type} : Verdict φ α → Bool
  | done _ => false
  | again _ => true

variable {F : Type → Type 1} {ε φ α γ A : Type} (ask : Coroutine F ε A) (verdict : A → Verdict φ α)
  (pause : Nat → A → Coroutine F ε Unit) (finish : Except φ α → Except ε γ)

/-- A loop that asks again after a fault that may pass, as long as tries are left. -/
def retrying : Nat → Nat → Coroutine F ε γ
  | 0, _ => ask >>= fun answer => finished (finish (verdict answer).result)
  | left + 1, attempt => ask >>= fun answer =>
      match verdict answer with
      | .done result => finished (finish result)
      | .again _ => pause attempt answer >>= fun _ => retrying left (attempt + 1)

/-- The answers such a loop gets, one in flight among them, and what it makes of them. -/
inductive Tried : Nat → List (Option A) → Option (Except ε γ) → Prop
  | between {left} : Tried left [] none
  | inFlight {left} : Tried left [none] none
  | done {left answer result} : verdict answer = .done result → Tried left [some answer] (some (finish result))
  | last {answer fault} : verdict answer = .again fault → Tried 0 [some answer] (some (finish (.error fault)))
  | again {left answer fault seen out} : verdict answer = .again fault → Tried left seen out →
      Tried (left + 1) (some answer :: seen) out

variable {verdict finish} {left : Nat} {seen : List (Option A)} {out : Option (Except ε γ)}

theorem Tried.length_le (h : Tried verdict finish left seen out) : seen.length ≤ left + 1 := by
  induction h with
  | between => exact Nat.zero_le _
  | inFlight => exact Nat.le_add_left ..
  | done _ => exact Nat.le_add_left ..
  | last _ => exact le_rfl
  | again _ _ ih => exact Nat.succ_le_succ ih

/-- All but the last answer were faults that may pass. -/
theorem Tried.faults (h : Tried verdict finish left seen out) :
    ∀ answer ∈ seen.dropLast, ∃ a fault, answer = some a ∧ verdict a = .again fault := by
  induction h with
  | between => exact nofun
  | inFlight => exact nofun
  | done _ => exact nofun
  | last _ => exact nofun
  | again hv hrest ih =>
      rename_i answer fault seen _
      intro other hother
      cases seen with
      | nil => exact absurd hother List.not_mem_nil
      | cons next rest =>
          rw [List.dropLast_cons_cons] at hother
          rcases List.mem_cons.mp hother with rfl | hother
          · exact ⟨answer, fault, rfl, hv⟩
          · exact ih other hother

/-- An outcome is what the last answer comes to; a fault is one only when no try is left. -/
theorem Tried.outcome (h : Tried verdict finish left seen out) {r : Except ε γ} (hr : out = some r) :
    ∃ answer, seen.getLast? = some (some answer) ∧ r = finish (verdict answer).result ∧
      ((verdict answer).isAgain → seen.length = left + 1) := by
  induction h with
  | between => cases hr
  | inFlight => cases hr
  | done hv =>
      cases hr
      refine ⟨_, rfl, by rw [hv]; rfl, fun hagain => ?_⟩
      rw [hv] at hagain
      cases hagain
  | last hv =>
      cases hr
      exact ⟨_, rfl, by rw [hv]; rfl, fun _ => rfl⟩
  | again _ _ ih =>
      obtain ⟨answer, hlast, hresult, hagain⟩ := ih hr
      refine ⟨answer, ?_, hresult, fun ha => ?_⟩
      · rw [List.getLast?_cons, hlast]
        rfl
      · rw [List.length_cons, hagain ha]

section Runs

variable {T : Type} [AddCommGroup T] [LinearOrder T] {pace : Pace F ε T} {deadline : T}
  {asked : Waited F ε T → Option (Option A)}

/-- The loop makes one request a try, if asking makes one and pausing none. -/
theorem RunsBy.tried
    (hask : ∀ {t waits r t'}, RunsBy pace deadline t ask waits r t' →
      (∃ a, r = some (.ok a) ∧ waits.filterMap asked = [some a]) ∨
        (r = none ∧ (waits.filterMap asked = [] ∨ waits.filterMap asked = [none])))
    (hpause : ∀ {n a t waits r t'}, RunsBy pace deadline t (pause n a) waits r t' →
      waits.filterMap asked = [] ∧ ∀ e, r ≠ some (.error e))
    {t t' : T} {attempt : Nat} {waits : List (Waited F ε T)}
    (h : RunsBy pace deadline t (retrying ask verdict pause finish left attempt) waits out t') :
    Tried verdict finish left (waits.filterMap asked) out := by
  have hcut : ∀ {t left waits}, RunsBy pace deadline t ask waits none t' →
      (Tried verdict finish left (waits.filterMap asked) none : Prop) := by
    intro t left waits hrun
    rcases hask hrun with ⟨_, hr, _⟩ | ⟨_, hseen | hseen⟩
    · cases hr
    · exact hseen ▸ .between
    · exact hseen ▸ .inFlight
  have hraised : ∀ {t waits e}, ¬ RunsBy pace deadline t ask waits (some (.error e)) t' := by
    intro t waits e hrun
    rcases hask hrun with ⟨_, hr, _⟩ | ⟨hr, _⟩
    · cases hr
    · cases hr
  have hanswered : ∀ {t waits a t'}, RunsBy pace deadline t ask waits (some (.ok a)) t' →
      waits.filterMap asked = [some a] := by
    intro t waits a t' hrun
    rcases hask hrun with ⟨_, hr, hseen⟩ | ⟨hr, _⟩
    · cases hr
      exact hseen
    · cases hr
  induction left generalizing t attempt waits with
  | zero =>
      rw [retrying] at h
      rcases h.of_bind with ⟨hrun, rfl⟩ | ⟨e, hrun, rfl⟩ | ⟨a, first, rest, t₁, hrun, hk, rfl⟩
      · exact hcut hrun
      · exact absurd hrun hraised
      · obtain ⟨rfl, rfl, _⟩ := hk.of_finished
        rw [List.append_nil, hanswered hrun]
        cases hv : verdict a with
        | done result => exact .done hv
        | again fault => exact .last hv
  | succ left ih =>
      rw [retrying] at h
      rcases h.of_bind with ⟨hrun, rfl⟩ | ⟨e, hrun, rfl⟩ | ⟨a, first, rest, t₁, hrun, hk, rfl⟩
      · exact hcut hrun
      · exact absurd hrun hraised
      · rw [List.filterMap_append, hanswered hrun]
        cases hv : verdict a with
        | done result =>
            simp only [hv] at hk
            obtain ⟨rfl, rfl, _⟩ := hk.of_finished
            exact .done hv
        | again fault =>
            simp only [hv] at hk
            refine .again hv ?_
            rcases hk.of_bind with ⟨hpaused, rfl⟩ | ⟨e, hpaused, _⟩ | ⟨_, waited, more, t₂, hpaused, hrest, rfl⟩
            · rw [(hpause hpaused).1]
              exact .between
            · exact absurd rfl ((hpause hpaused).2 e)
            · rw [List.filterMap_append, (hpause hpaused).1, List.nil_append]
              exact ih hrest

/-- What holds of every wait in asking and in pausing holds of every wait. -/
theorem RunsBy.each {P : Waited F ε T → Prop}
    (hask : ∀ {t waits r t'}, RunsBy pace deadline t ask waits r t' → ∀ w ∈ waits, P w)
    (hpause : ∀ {n a t waits r t'}, RunsBy pace deadline t (pause n a) waits r t' → ∀ w ∈ waits, P w)
    {t t' : T} {attempt : Nat} {waits : List (Waited F ε T)}
    (h : RunsBy pace deadline t (retrying ask verdict pause finish left attempt) waits out t') : ∀ w ∈ waits, P w := by
  have hboth : ∀ {first rest : List (Waited F ε T)}, (∀ w ∈ first, P w) → (∀ w ∈ rest, P w) → ∀ w ∈ first ++ rest, P w :=
    fun hfirst hrest w hw => (List.mem_append.mp hw).elim (hfirst w) (hrest w)
  induction left generalizing t attempt waits with
  | zero =>
      rw [retrying] at h
      rcases h.of_bind with ⟨hrun, _⟩ | ⟨e, hrun, _⟩ | ⟨a, first, rest, t₁, hrun, hk, rfl⟩
      · exact hask hrun
      · exact hask hrun
      · obtain ⟨rfl, _, _⟩ := hk.of_finished
        exact hboth (hask hrun) nofun
  | succ left ih =>
      rw [retrying] at h
      rcases h.of_bind with ⟨hrun, _⟩ | ⟨e, hrun, _⟩ | ⟨a, first, rest, t₁, hrun, hk, rfl⟩
      · exact hask hrun
      · exact hask hrun
      · refine hboth (hask hrun) ?_
        cases hv : verdict a with
        | done result =>
            simp only [hv] at hk
            obtain ⟨rfl, _, _⟩ := hk.of_finished
            exact nofun
        | again fault =>
            simp only [hv] at hk
            rcases hk.of_bind with ⟨hpaused, _⟩ | ⟨e, hpaused, _⟩ | ⟨_, waited, more, t₂, hpaused, hrest, rfl⟩
            · exact hpause hpaused
            · exact hpause hpaused
            · exact hboth (hpause hpaused) (ih hrest)

/-- With time for every try and every pause before the deadline, it is not cut off. -/
theorem RunsBy.in_time [IsOrderedAddMonoid T] {asking pausing : T} (hasking : 0 ≤ asking) (hpausing : 0 ≤ pausing)
    (hask : ∀ {t waits r t'}, RunsBy pace deadline t ask waits r t' → t + asking < deadline →
      r ≠ none ∧ t' ≤ t + asking)
    (hpause : ∀ {n a t waits r t'}, RunsBy pace deadline t (pause n a) waits r t' → t + pausing < deadline →
      r ≠ none ∧ t' ≤ t + pausing)
    {t t' : T} {attempt : Nat} {waits : List (Waited F ε T)}
    (h : RunsBy pace deadline t (retrying ask verdict pause finish left attempt) waits out t')
    (ht : t + asking + left • (pausing + asking) < deadline) : out ≠ none := by
  have hround : 0 ≤ pausing + asking := add_nonneg hpausing hasking
  have hfirst : t + asking < deadline := (le_add_of_nonneg_right (nsmul_nonneg hround left)).trans_lt ht
  induction left generalizing t attempt waits with
  | zero =>
      rw [retrying] at h
      rcases h.of_bind with ⟨hrun, _⟩ | ⟨e, hrun, rfl⟩ | ⟨a, first, rest, t₁, hrun, hk, rfl⟩
      · exact absurd rfl (hask hrun hfirst).1
      · exact nofun
      · obtain ⟨_, rfl, _⟩ := hk.of_finished
        exact nofun
  | succ left ih =>
      rw [retrying] at h
      rcases h.of_bind with ⟨hrun, _⟩ | ⟨e, hrun, rfl⟩ | ⟨a, first, rest, t₁, hrun, hk, rfl⟩
      · exact absurd rfl (hask hrun hfirst).1
      · exact nofun
      · have hasked : t₁ ≤ t + asking := (hask hrun hfirst).2
        have hrest : t₁ + (pausing + asking) + left • (pausing + asking) < deadline := by
          refine lt_of_le_of_lt ?_ ht
          rw [succ_nsmul', ← add_assoc (t + asking)]
          gcongr
        have hnext : t₁ + (pausing + asking) < deadline :=
          (le_add_of_nonneg_right (nsmul_nonneg hround left)).trans_lt hrest
        have hpaused : t₁ + pausing < deadline := by
          refine lt_of_le_of_lt ?_ hnext
          rw [← add_assoc]
          exact le_add_of_nonneg_right hasking
        cases hv : verdict a with
        | done result =>
            simp only [hv] at hk
            obtain ⟨_, rfl, _⟩ := hk.of_finished
            exact nofun
        | again fault =>
            simp only [hv] at hk
            rcases hk.of_bind with ⟨hp, _⟩ | ⟨e, hp, rfl⟩ | ⟨_, waited, more, t₂, hp, hmore, rfl⟩
            · exact absurd rfl (hpause hp hpaused).1
            · exact nofun
            · have ht₂ : t₂ ≤ t₁ + pausing := (hpause hp hpaused).2
              refine ih hmore (lt_of_le_of_lt ?_ hrest) (lt_of_le_of_lt ?_ hnext)
              · rw [← add_assoc t₁]
                gcongr
              · rw [← add_assoc t₁]
                gcongr

end Runs

end Aetheris.Lib.Coroutine
