import Mathlib.Data.List.Nodup
import Mathlib.Data.List.Perm.Basic

namespace Aetheris.Lib.KeyedRows

variable {α κ : Type} [DecidableEq κ] {key : α → κ} {stored wanted : List α} {a : α}

/-- The wanted rows whose keys are not stored yet. -/
def missing (key : α → κ) (stored wanted : List α) : List α := wanted.filter fun a => key a ∉ stored.map key

theorem mem_missing : a ∈ missing key stored wanted ↔ a ∈ wanted ∧ ∀ b ∈ stored, key b ≠ key a := by
  simp [missing]

/-- No two rows under one key, once what is missing has come in. -/
theorem nodup_missing (hstored : (stored.map key).Nodup) (hwanted : (wanted.map key).Nodup) :
    ((stored ++ missing key stored wanted).map key).Nodup := by
  rw [List.map_append]
  refine hstored.append (hwanted.sublist (List.filter_sublist.map key)) ?_
  intro k hk hmissing
  obtain ⟨b, hb, rfl⟩ := List.mem_map.mp hk
  obtain ⟨a, ha, he⟩ := List.mem_map.mp hmissing
  exact (mem_missing.mp ha).2 b hb he.symm

/-- Where rows under one key are one row, the stored rows become the wanted ones when the missing ones come in and
those that are not wanted go. -/
theorem refreshed_perm (hstored : (stored.map key).Nodup) (hwanted : (wanted.map key).Nodup)
    (hsame : ∀ a ∈ stored, ∀ b ∈ wanted, key a = key b → a = b) :
    ((stored ++ missing key stored wanted).filter fun a => key a ∈ wanted.map key).Perm wanted := by
  have hnodup := (nodup_missing hstored hwanted).of_map key
  refine (List.perm_ext_iff_of_nodup (hnodup.filter _) (hwanted.of_map key)).mpr fun a => ?_
  rw [List.mem_filter, List.mem_append, mem_missing, decide_eq_true_iff, List.mem_map]
  constructor
  · rintro ⟨ha | ha, b, hb, he⟩
    · exact hsame a ha b hb he.symm ▸ hb
    · exact ha.1
  · intro ha
    refine ⟨?_, a, ha, rfl⟩
    by_cases hknown : ∃ b ∈ stored, key b = key a
    · obtain ⟨b, hb, he⟩ := hknown
      exact .inl (hsame b hb a ha he ▸ hb)
    · exact .inr ⟨ha, fun b hb he => hknown ⟨b, hb, he⟩⟩

/-- Where every stored row is wanted, none goes. -/
theorem extended_perm (hwanted : (wanted.map key).Nodup) (hstored : (stored.map key).Nodup) (hsub : stored ⊆ wanted) :
    (stored ++ missing key stored wanted).Perm wanted := by
  have hsame : ∀ a ∈ stored, ∀ b ∈ wanted, key a = key b → a = b := fun a ha b hb he =>
    List.inj_on_of_nodup_map hwanted (hsub ha) hb he
  have hall : ((stored ++ missing key stored wanted).filter fun a => key a ∈ wanted.map key) =
      stored ++ missing key stored wanted := by
    apply List.filter_eq_self.mpr
    intro a ha
    rcases List.mem_append.mp ha with ha | ha
    · exact decide_eq_true (List.mem_map_of_mem (hsub ha))
    · exact decide_eq_true (List.mem_map_of_mem (mem_missing.mp ha).1)
  rw [← hall]
  exact refreshed_perm hstored hwanted hsame

end Aetheris.Lib.KeyedRows
