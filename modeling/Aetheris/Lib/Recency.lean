import Mathlib.Data.Finset.Card
import Aetheris.Lib.Dict

namespace Aetheris.Lib

namespace Recency

variable {κ : Type} [DecidableEq κ] {keys : List κ} {since : κ → Finset κ} {j k : κ} {n : Nat}

/-- The keys that were touched since the last touch of each, after one more touch. -/
def touch (k : κ) (since : κ → Finset κ) : κ → Finset κ := fun j => if j = k then ∅ else insert k (since j)

theorem touch_of_ne (since : κ → Finset κ) (hj : j ≠ k) : touch k since j = insert k (since j) := if_neg hj

theorem card_le_touch (since : κ → Finset κ) (hj : j ≠ k) : (since j).card ≤ (touch k since j).card := by
  rw [touch_of_ne since hj]
  exact Finset.card_le_card (Finset.subset_insert k (since j))

/-- The keys stand in the order of their last touches: what comes after a key was touched since. -/
def Recent (since : κ → Finset κ) (keys : List κ) : Prop := keys.Pairwise fun j k => k ∈ since j

omit [DecidableEq κ] in
theorem Recent.sublist {keys' : List κ} (h : Recent since keys) (hkeys : keys'.Sublist keys) : Recent since keys' :=
  List.Pairwise.sublist hkeys h

/-- The key that is touched goes to the end. -/
theorem Recent.touch (h : Recent since keys) (k : κ) :
    Recent (touch k since) (keys.filter (fun j => j ≠ k) ++ [k]) := by
  have hother : ∀ j ∈ keys.filter (fun j => j ≠ k), j ≠ k := fun j hj => by simpa using (List.mem_filter.mp hj).2
  refine List.pairwise_append.mpr ⟨?_, List.pairwise_singleton _ k, ?_⟩
  · refine (h.sublist List.filter_sublist).imp_of_mem fun {i j} hi _ hij => ?_
    rw [touch_of_ne since (hother i hi)]
    exact Finset.mem_insert_of_mem hij
  · intro i hi j hj
    rw [List.mem_singleton.mp hj, touch_of_ne since (hother i hi)]
    exact Finset.mem_insert_self k (since i)

/-- A key that falls out at the front has seen as many others touched as there are left. -/
theorem Recent.card_of_dropped (h : Recent since keys) (hnodup : keys.Nodup) (hj : j ∈ keys) (hdropped : j ∉ keys.drop n) :
    keys.length - n ≤ (since j).card := by
  have hfirst : j ∈ keys.take n := by
    rw [← List.take_append_drop n keys, List.mem_append] at hj
    exact hj.resolve_right hdropped
  have hparts : (keys.take n ++ keys.drop n).Pairwise fun j k => k ∈ since j := by
    rw [List.take_append_drop]
    exact h
  have hafter : (keys.drop n).toFinset ⊆ since j := fun k hk =>
    (List.pairwise_append.mp hparts).2.2 j hfirst k (List.mem_toFinset.mp hk)
  calc keys.length - n = (keys.drop n).toFinset.card := by
        rw [List.toFinset_card_of_nodup (hnodup.sublist (List.drop_sublist n keys)), List.length_drop]
    _ ≤ (since j).card := Finset.card_le_card hafter

end Recency

namespace Dict

variable {κ ν : Type} [DecidableEq κ] {d : Dict κ ν} {j k : κ} {v : ν} {n : Nat}

theorem keys_erase (d : Dict κ ν) (k : κ) : (d.erase k).keys = d.keys.filter fun j => j ≠ k := by
  rw [keys, keys, List.filter_map]
  rfl

theorem not_mem_keys_erase (d : Dict κ ν) (k : κ) : k ∉ (d.erase k).keys := by
  rw [keys_erase, List.mem_filter]
  simp

/-- The entry under the key, if there is one, becomes the last. -/
def moveToEnd (d : Dict κ ν) (k : κ) : Dict κ ν :=
  match d.get? k with
  | some v => ⟨(d.erase k).entries ++ [(k, v)], nodup_append v (not_mem_keys_erase d k)⟩
  | none => d

/-- The entries without the first ones, as long as there are more than n. -/
def dropOldest (n : Nat) : List (κ × ν) → List (κ × ν)
  | [] => []
  | e :: rest => if n < rest.length + 1 then dropOldest n rest else e :: rest

omit [DecidableEq κ] in
theorem dropOldest_eq (n : Nat) (entries : List (κ × ν)) : dropOldest n entries = entries.drop (entries.length - n) := by
  induction entries with
  | nil => exact List.drop_nil.symm
  | cons e rest ih =>
      rw [dropOldest, List.length_cons]
      split
      · have hlength : rest.length + 1 - n = rest.length - n + 1 := by omega
        rw [ih, hlength, List.drop_succ_cons]
      · have hlength : rest.length + 1 - n = 0 := by omega
        rw [hlength, List.drop_zero]

omit [DecidableEq κ] in
theorem nodup_dropOldest (n : Nat) (d : Dict κ ν) : ((dropOldest n d.entries).map Prod.fst).Nodup := by
  rw [dropOldest_eq]
  exact d.nodup.sublist ((List.drop_sublist _ _).map Prod.fst)

/-- Take the first entry away as long as there are more than n. -/
def trim (n : Nat) (d : Dict κ ν) : Dict κ ν := ⟨dropOldest n d.entries, nodup_dropOldest n d⟩

omit [DecidableEq κ] in
theorem entries_trim (n : Nat) (d : Dict κ ν) : (d.trim n).entries = d.entries.drop (d.size - n) :=
  dropOldest_eq n d.entries

theorem entries_moveToEnd (h : d.get? k = some v) : (d.moveToEnd k).entries = (d.erase k).entries ++ [(k, v)] := by
  rw [moveToEnd, h]

theorem keys_moveToEnd (h : k ∈ d.keys) : (d.moveToEnd k).keys = d.keys.filter (fun j => j ≠ k) ++ [k] := by
  obtain ⟨v, hv⟩ : ∃ v, d.get? k = some v := by
    rw [← Option.ne_none_iff_exists', ne_eq, get?_eq_none]
    exact not_not_intro h
  rw [keys, entries_moveToEnd hv, List.map_append, ← keys, keys_erase]
  rfl

theorem get?_moveToEnd (d : Dict κ ν) (k j : κ) : (d.moveToEnd k).get? j = d.get? j := by
  cases h : d.get? k with
  | none => rw [moveToEnd, h]
  | some v =>
      ext w
      rw [get?_eq_some, entries_moveToEnd h, List.mem_append, ← get?_eq_some, get?_erase, List.mem_singleton]
      by_cases hj : j = k
      · subst hj
        rw [if_pos rfl, h]
        simp [eq_comm]
      · rw [if_neg hj]
        simp [hj]

theorem keys_set_moveToEnd (d : Dict κ ν) (k : κ) (v : ν) :
    ((d.set k v).moveToEnd k).keys = d.keys.filter (fun j => j ≠ k) ++ [k] := by
  rw [keys_moveToEnd (mem_keys_set d k v)]
  by_cases h : k ∈ d.keys
  · rw [keys_set_of_mem h]
  · rw [keys, set_of_not_mem h, List.map_append, List.filter_append]
    simp [keys]

omit [DecidableEq κ] in
theorem keys_trim (n : Nat) (d : Dict κ ν) : (d.trim n).keys = d.keys.drop (d.keys.length - n) := by
  rw [keys, entries_trim, List.map_drop, keys, List.length_map]
  rfl

omit [DecidableEq κ] in
theorem size_eq (d : Dict κ ν) : d.size = d.keys.length := (List.length_map _).symm

omit [DecidableEq κ] in
theorem size_trim_le (n : Nat) (d : Dict κ ν) : (d.trim n).size ≤ n := by
  rw [size_eq, keys_trim, List.length_drop]
  omega

theorem size_moveToEnd (d : Dict κ ν) (k : κ) : (d.moveToEnd k).size = d.size := by
  by_cases h : k ∈ d.keys
  · have hnodup : d.keys.Nodup := d.nodup
    have herase : d.keys.filter (fun j => j ≠ k) = d.keys.erase k := by
      rw [hnodup.erase_eq_filter]
      refine List.filter_congr fun j _ => ?_
      rw [Bool.eq_iff_iff, decide_eq_true_iff, bne_iff_ne]
    have hpos := List.length_pos_of_mem h
    rw [size_eq, size_eq, keys_moveToEnd h, herase, List.length_append, List.length_erase_of_mem h, List.length_singleton]
    omega
  · rw [moveToEnd, get?_eq_none.mpr h]

theorem get?_of_trim (h : (d.trim n).get? k = some v) : d.get? k = some v := by
  rw [get?_eq_some] at h ⊢
  rw [entries_trim] at h
  exact List.mem_of_mem_drop h

end Dict

end Aetheris.Lib
