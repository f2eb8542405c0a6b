import Mathlib.Data.List.Nodup

namespace Aetheris.Lib

variable {σ κ ρ α : Type} {find : σ → κ → Option ρ} {key : ρ → κ} {Q : ρ → ρ → Prop}

/-- A turn of a loop replaces the row it is about and no other. -/
structure Turn (find : σ → κ → Option ρ) (key : ρ → κ) (Q : ρ → ρ → Prop) (r : ρ) (s t : σ) : Prop where
  own : ∃ r', find t (key r) = some r' ∧ Q r r'
  others : ∀ k, key r ≠ k → find t k = find s k

structure Pass (find : σ → κ → Option ρ) (key : ρ → κ) (Q : ρ → ρ → Prop) (rs : List ρ) (s t : σ) : Prop where
  own : ∀ r ∈ rs, ∃ r', find t (key r) = some r' ∧ Q r r'
  others : ∀ k, k ∉ rs.map key → find t k = find s k

theorem Turn.keep (r : ρ) {s : σ} (h : find s (key r) = some r) (hq : Q r r) : Turn find key Q r s s :=
  ⟨⟨r, h, hq⟩, fun _ _ => rfl⟩

theorem Pass.nil (s : σ) : Pass find key Q [] s s :=
  ⟨fun _ hr => absurd hr List.not_mem_nil, fun _ _ => rfl⟩

theorem Pass.cons {r : ρ} {rest : List ρ} {s s₁ t : σ} (hr : key r ∉ rest.map key)
    (h : Turn find key Q r s s₁) (hp : Pass find key Q rest s₁ t) : Pass find key Q (r :: rest) s t := by
  constructor
  · intro q hq
    rcases List.mem_cons.mp hq with rfl | hq
    · rw [hp.others (key q) hr]
      exact h.own
    · exact hp.own q hq
  · intro k hk
    rw [List.map_cons, List.mem_cons, not_or] at hk
    rw [hp.others k hk.2, h.others k (Ne.symm hk.1)]

/-- What holds before a loop and is handed on by each of its turns is handed
on to its end, and the rows it did not reach yet are still as they were. -/
theorem pass_of_turns (Goes : List ρ → α → σ → Prop)
    (hturn : ∀ r rest a s, Goes (r :: rest) a s → key r ∉ rest.map key → find s (key r) = some r →
      ∃ a' t, Goes rest a' t ∧ Turn find key Q r s t)
    {rs : List ρ} {a : α} {s : σ} (h : Goes rs a s) (hn : (rs.map key).Nodup)
    (hs : ∀ r ∈ rs, find s (key r) = some r) : ∃ a' t, Goes [] a' t ∧ Pass find key Q rs s t := by
  induction rs generalizing a s with
  | nil => exact ⟨a, s, h, .nil s⟩
  | cons r rest ih =>
      obtain ⟨hr, hn⟩ := List.nodup_cons.mp hn
      obtain ⟨a₁, s₁, h₁, hmove⟩ := hturn r rest a s h hr (hs r (List.mem_cons_self ..))
      have hrest : ∀ q ∈ rest, find s₁ (key q) = some q := by
        intro q hq
        have hne : key r ≠ key q := fun he => hr (List.mem_map.mpr ⟨q, hq, he.symm⟩)
        rw [hmove.others (key q) hne]
        exact hs q (List.mem_cons_of_mem r hq)
      obtain ⟨a', t, h', hpass⟩ := ih h₁ hn hrest
      exact ⟨a', t, h', hpass.cons hr hmove⟩

/-- Both states hold rows under the same keys, and these are related. -/
def Rowwise (find : σ → κ → Option ρ) (Q : ρ → ρ → Prop) (s t : σ) : Prop :=
  ∀ k, Option.Rel Q (find s k) (find t k)

namespace Rowwise

variable {S T : ρ → ρ → Prop} {s t u : σ}

theorem refl (hQ : ∀ r, Q r r) (s : σ) : Rowwise find Q s s := by
  intro k
  cases find s k with
  | none => exact .none
  | some r => exact .some (hQ r)

theorem row (h : Rowwise find Q s t) {k : κ} {r : ρ} (hr : find s k = some r) :
    ∃ r', find t k = some r' ∧ Q r r' := by
  have hk := h k
  rw [hr] at hk
  cases ht : find t k with
  | none =>
      rw [ht] at hk
      cases hk
  | some r' =>
      rw [ht] at hk
      cases hk with
      | some hq => exact ⟨r', rfl, hq⟩

theorem source (h : Rowwise find Q s t) {k : κ} {r' : ρ} (hr : find t k = some r') :
    ∃ r, find s k = some r ∧ Q r r' := by
  cases hs : find s k with
  | none =>
      have hk := h k
      rw [hs, hr] at hk
      cases hk
  | some r =>
      obtain ⟨q, hq, hrq⟩ := h.row hs
      rw [hr] at hq
      cases hq
      exact ⟨r, rfl, hrq⟩

theorem of_rows (hrow : ∀ k r, find s k = some r → ∃ r', find t k = some r' ∧ Q r r')
    (habsent : ∀ k, find s k = none → find t k = none) : Rowwise find Q s t := by
  intro k
  cases hs : find s k with
  | none =>
      rw [habsent k hs]
      exact .none
  | some r =>
      obtain ⟨r', hr', hq⟩ := hrow k r hs
      rw [hr']
      exact .some hq

theorem imp (h : Rowwise find Q s t) (himp : ∀ k r r', find s k = some r → Q r r' → S r r') :
    Rowwise find S s t := by
  intro k
  have hk := h k
  cases hs : find s k with
  | none =>
      cases ht : find t k with
      | none => exact .none
      | some r' =>
          rw [hs, ht] at hk
          cases hk
  | some r =>
      obtain ⟨r', hr', hq⟩ := h.row hs
      rw [hr']
      exact .some (himp k r r' hs hq)

theorem trans (h : Rowwise find Q s t) (h' : Rowwise find S t u) (hcomp : ∀ a b c, Q a b → S b c → T a c) :
    Rowwise find T s u := by
  refine of_rows (fun k r hr => ?_) (fun k hk => ?_)
  · obtain ⟨r', hr', hq⟩ := h.row hr
    obtain ⟨r'', hr'', hs⟩ := h'.row hr'
    exact ⟨r'', hr'', hcomp r r' r'' hq hs⟩
  · cases hu : find u k with
    | none => rfl
    | some r'' =>
        obtain ⟨r', hr', _⟩ := h'.source hu
        obtain ⟨r, hr, _⟩ := h.source hr'
        rw [hk] at hr
        cases hr

end Rowwise

/-- A loop over some rows of a state leaves it row by row. -/
theorem Pass.rowwise {rs : List ρ} {s t : σ} {S : ρ → ρ → Prop} (h : Pass find key Q rs s t)
    (hrows : ∀ r ∈ rs, find s (key r) = some r) (hQ : ∀ r ∈ rs, ∀ r', Q r r' → S r r') (hS : ∀ r, S r r) :
    Rowwise find S s t := by
  intro k
  by_cases hk : k ∈ rs.map key
  · obtain ⟨r, hr, rfl⟩ := List.mem_map.mp hk
    obtain ⟨r', hr', hq⟩ := h.own r hr
    rw [hrows r hr, hr']
    exact .some (hQ r hr r' hq)
  · rw [h.others k hk]
    exact Rowwise.refl hS s k

end Aetheris.Lib
