import Mathlib.Algebra.BigOperators.Group.List.Basic
import Mathlib.Data.List.Nodup
import Mathlib.Data.List.Lookmap

namespace Aetheris.Lib

/-- A map that keeps its keys in the order in which they were first set. -/
structure Dict (κ ν : Type) where
  entries : List (κ × ν)
  nodup : (entries.map Prod.fst).Nodup

namespace Dict

variable {κ ν μ A : Type} [DecidableEq κ]

instance [DecidableEq ν] : DecidableEq (Dict κ ν) := fun d e =>
  decidable_of_iff (d.entries = e.entries) (by cases d; cases e; simp)

def empty : Dict κ ν := ⟨[], .nil⟩

def keys (d : Dict κ ν) : List κ := d.entries.map Prod.fst

def values (d : Dict κ ν) : List ν := d.entries.map Prod.snd

def size (d : Dict κ ν) : Nat := d.entries.length

def get? (d : Dict κ ν) (k : κ) : Option ν := d.entries.lookup k

omit [DecidableEq κ] in
theorem keys_map (f : κ × ν → κ × μ) (hf : ∀ e, (f e).1 = e.1) (entries : List (κ × ν)) :
    (entries.map f).map Prod.fst = entries.map Prod.fst := by
  rw [List.map_map]
  exact List.map_congr_left fun e _ => hf e

omit [DecidableEq κ] in
theorem nodup_append {d : Dict κ ν} {k : κ} (v : ν) (h : k ∉ d.keys) :
    ((d.entries ++ [(k, v)]).map Prod.fst).Nodup := by
  rw [List.map_append]
  refine d.nodup.append (List.nodup_singleton k) ?_
  intro a ha hk
  rw [List.map_singleton, List.mem_singleton] at hk
  subst hk
  exact h ha

def map (f : ν → μ) (d : Dict κ ν) : Dict κ μ where
  entries := d.entries.map fun e => (e.1, f e.2)
  nodup := by
    rw [keys_map (fun e => (e.1, f e.2)) (fun _ => rfl)]
    exact d.nodup

def revise (g : ν → ν) (k : κ) (e : κ × ν) : κ × ν := (e.1, if e.1 = k then g e.2 else e.2)

/-- Change the value under a key in place, if there is one. -/
def update (d : Dict κ ν) (k : κ) (g : ν → ν) : Dict κ ν where
  entries := d.entries.map (revise g k)
  nodup := by
    rw [keys_map (revise g k) (fun _ => rfl)]
    exact d.nodup

def set (d : Dict κ ν) (k : κ) (v : ν) : Dict κ ν :=
  if h : k ∈ d.keys then d.update k (fun _ => v) else ⟨d.entries ++ [(k, v)], nodup_append v h⟩

def erase (d : Dict κ ν) (k : κ) : Dict κ ν where
  entries := d.entries.filter fun e => e.1 ≠ k
  nodup := d.nodup.sublist (List.filter_sublist.map Prod.fst)

def setDefault (d : Dict κ ν) (k : κ) (v : ν) : Dict κ ν := if (d.get? k).isSome then d else d.set k v

variable {d : Dict κ ν} {k : κ} {v : ν}

omit [DecidableEq κ] in
@[ext]
theorem ext {d e : Dict κ ν} (h : d.entries = e.entries) : d = e := by
  cases d
  cases e
  cases h
  rfl

theorem get?_eq_some : d.get? k = some v ↔ (k, v) ∈ d.entries := by
  obtain ⟨entries, hnodup⟩ := d
  change entries.lookup k = some v ↔ (k, v) ∈ entries
  induction entries with
  | nil => simp
  | cons e rest ih =>
      obtain ⟨hfresh, hrest⟩ := List.nodup_cons.mp hnodup
      obtain ⟨key, value⟩ := e
      rw [List.lookup_cons, List.mem_cons]
      by_cases hk : k = key
      · subst hk
        have hgone : (k, v) ∉ rest := fun hm => hfresh (List.mem_map.mpr ⟨_, hm, rfl⟩)
        simp [hgone, eq_comm]
      · simp [hk, ih hrest, beq_false_of_ne hk]

theorem get?_eq_none : d.get? k = none ↔ k ∉ d.keys := by
  rw [get?, List.lookup_eq_none_iff]
  simp only [keys, List.mem_map, bne_iff_ne, not_exists, not_and]
  exact ⟨fun h e he hk => h e he hk.symm, fun h e he hk => h e he hk.symm⟩

theorem get?_map (f : ν → μ) (d : Dict κ ν) (k : κ) : (d.map f).get? k = (d.get? k).map f := by
  obtain ⟨entries, hnodup⟩ := d
  change (entries.map _).lookup k = (entries.lookup k).map f
  clear hnodup
  induction entries with
  | nil => rfl
  | cons e rest ih =>
      rw [List.map_cons, List.lookup_cons, List.lookup_cons]
      cases k == e.1 with
      | true => rfl
      | false => exact ih

omit [DecidableEq κ] in
theorem values_map (f : ν → μ) (d : Dict κ ν) : (d.map f).values = d.values.map f := by
  rw [values, values, map, List.map_map, List.map_map]
  rfl

theorem map_update {f : ν → μ} {g : ν → ν} (hg : ∀ v, f (g v) = f v) (d : Dict κ ν) (k : κ) :
    (d.update k g).map f = d.map f := by
  ext1
  change (d.entries.map _).map _ = d.entries.map _
  rw [List.map_map]
  refine List.map_congr_left fun e _ => ?_
  simp only [Function.comp_apply, revise]
  split <;> simp [hg]

omit [DecidableEq κ] in
theorem keys_of_map (f : ν → μ) (d : Dict κ ν) : (d.map f).keys = d.keys :=
  keys_map (fun e => (e.1, f e.2)) (fun _ => rfl) d.entries

theorem set_of_not_mem (h : k ∉ d.keys) : (d.set k v).entries = d.entries ++ [(k, v)] := by
  rw [set, dif_neg h]

theorem mem_keys_set (d : Dict κ ν) (k : κ) (v : ν) : k ∈ (d.set k v).keys := by
  by_cases h : k ∈ d.keys
  · rw [set, dif_pos h, keys, update, keys_map (revise _ k) (fun _ => rfl)]
    exact h
  · rw [keys, set_of_not_mem h, List.map_append]
    exact List.mem_append_right _ (List.mem_singleton_self k)

theorem get?_set_self (d : Dict κ ν) (k : κ) (v : ν) : (d.set k v).get? k = some v := by
  rw [get?_eq_some]
  by_cases h : k ∈ d.keys
  · obtain ⟨e, he, rfl⟩ := List.mem_map.mp h
    rw [set, dif_pos h]
    exact List.mem_map.mpr ⟨e, he, by rw [revise, if_pos rfl]⟩
  · rw [set_of_not_mem h]
    exact List.mem_append_right _ (List.mem_singleton_self _)

theorem keys_set_of_mem (h : k ∈ d.keys) (v : ν) : (d.set k v).keys = d.keys := by
  rw [set, dif_pos h, keys, update, keys_map (revise _ k) (fun _ => rfl)]
  rfl

theorem mem_keys_set_iff {k' : κ} : k' ∈ (d.set k v).keys ↔ k' = k ∨ k' ∈ d.keys := by
  by_cases h : k ∈ d.keys
  · rw [keys_set_of_mem h]
    exact ⟨.inr, fun hk' => hk'.elim (fun hsame => hsame ▸ h) id⟩
  · rw [keys, set_of_not_mem h, List.map_append, List.mem_append, List.map_singleton, List.mem_singleton]
    exact or_comm

/-- What is set under a key that the first part has not changes the second part alone. -/
theorem entries_set_append {e f : Dict κ ν} (hf : f.entries = d.entries ++ e.entries) (hk : k ∉ d.keys) :
    (f.set k v).entries = d.entries ++ (e.set k v).entries := by
  have hkeys : f.keys = d.keys ++ e.keys := by
    rw [keys, hf, List.map_append]
    rfl
  by_cases h : k ∈ e.keys
  · have hfirst : d.entries.map (revise (fun _ => v) k) = d.entries := by
      refine (List.map_congr_left fun entry hentry => ?_).trans (List.map_id _)
      have hother : entry.1 ≠ k := fun hsame => hk (hsame ▸ List.mem_map_of_mem hentry)
      exact Prod.ext rfl (if_neg hother)
    have hmem : k ∈ f.keys := hkeys ▸ List.mem_append_right _ h
    rw [set, set, dif_pos h, dif_pos hmem]
    change f.entries.map _ = d.entries ++ e.entries.map _
    rw [hf, List.map_append, hfirst]
  · have hnone : k ∉ f.keys := by
      rw [hkeys, List.mem_append]
      exact fun hk' => hk'.elim hk h
    rw [set_of_not_mem hnone, set_of_not_mem h, hf, List.append_assoc]

/-- The map of a list of pairs: of a key, the last. -/
def ofList (pairs : List (κ × ν)) : Dict κ ν := pairs.foldl (fun d e => d.set e.1 e.2) .empty

theorem foldl_set_entries (pairs : List (κ × ν)) (d : Dict κ ν) (h : ((d.entries ++ pairs).map Prod.fst).Nodup) :
    (pairs.foldl (fun d e => d.set e.1 e.2) d).entries = d.entries ++ pairs := by
  induction pairs generalizing d with
  | nil => exact (List.append_nil _).symm
  | cons e pairs ih =>
      have hfresh : e.1 ∉ d.keys := by
        rw [List.map_append, List.map_cons, List.nodup_append] at h
        exact fun hk => h.2.2 _ hk _ (List.mem_cons_self ..) rfl
      rw [List.append_cons, ← set_of_not_mem hfresh] at h
      rw [List.foldl_cons, ih _ h, set_of_not_mem hfresh, List.append_assoc]
      rfl

theorem ofList_entries (d : Dict κ ν) : ofList d.entries = d := by
  ext1
  exact foldl_set_entries d.entries .empty d.nodup

theorem mem_entries_set {e : κ × ν} (he : e ∈ (d.set k v).entries) : e = (k, v) ∨ e ∈ d.entries := by
  by_cases h : k ∈ d.keys
  · rw [set, dif_pos h] at he
    obtain ⟨entry, hentry, rfl⟩ := List.mem_map.mp he
    by_cases hk : entry.1 = k
    · exact .inl (Prod.ext hk (if_pos hk))
    · exact .inr (by rwa [revise, if_neg hk])
  · rw [set_of_not_mem h, List.mem_append, List.mem_singleton] at he
    exact he.symm

theorem mem_entries_foldl_set {e : κ × ν} (pairs : List (κ × ν)) (d : Dict κ ν)
    (he : e ∈ (pairs.foldl (fun d e => d.set e.1 e.2) d).entries) : e ∈ d.entries ∨ e ∈ pairs := by
  induction pairs generalizing d with
  | nil => exact .inl he
  | cons first rest ih =>
      rcases ih (d.set first.1 first.2) he with hset | hrest
      · rcases mem_entries_set hset with rfl | hd
        · exact .inr List.mem_cons_self
        · exact .inl hd
      · exact .inr (List.mem_cons_of_mem _ hrest)

theorem mem_of_mem_ofList {e : κ × ν} {pairs : List (κ × ν)} (he : e ∈ (ofList pairs).entries) : e ∈ pairs :=
  (mem_entries_foldl_set pairs .empty he).resolve_left List.not_mem_nil

/-- The keys that are set in the end are a matter of the keys alone. -/
theorem keys_foldl_set {pairs : List (κ × ν)} {pairs' : List (κ × μ)} (h : pairs.map Prod.fst = pairs'.map Prod.fst)
    {d : Dict κ ν} {d' : Dict κ μ} (hd : d.keys = d'.keys) :
    (pairs.foldl (fun d e => d.set e.1 e.2) d).keys = (pairs'.foldl (fun d e => d.set e.1 e.2) d').keys := by
  induction pairs generalizing pairs' d d' with
  | nil =>
      obtain rfl := List.map_eq_nil_iff.mp h.symm
      exact hd
  | cons first rest ih =>
      obtain ⟨first', rest', rfl, hfirst, hrest⟩ := List.map_eq_cons_iff.mp h.symm
      refine ih hrest.symm ?_
      change (d.set first.1 first.2).keys = (d'.set first'.1 first'.2).keys
      rw [hfirst]
      by_cases hk : first.1 ∈ d.keys
      · rw [keys_set_of_mem hk, keys_set_of_mem (hd ▸ hk), hd]
      · have hset : (d.set first.1 first.2).keys = d.keys ++ [first.1] := by
          rw [keys, set_of_not_mem hk, List.map_append]
          rfl
        have hset' : (d'.set first.1 first'.2).keys = d'.keys ++ [first.1] := by
          rw [keys, set_of_not_mem (hd ▸ hk), List.map_append]
          rfl
        rw [hset, hset', hd]

theorem mem_keys_foldl_set (pairs : List (κ × ν)) (d : Dict κ ν) :
    k ∈ (pairs.foldl (fun d e => d.set e.1 e.2) d).keys ↔ k ∈ d.keys ∨ k ∈ pairs.map Prod.fst := by
  induction pairs generalizing d with
  | nil => simp
  | cons first rest ih =>
      rw [List.foldl_cons, ih, mem_keys_set_iff, List.map_cons, List.mem_cons]
      tauto

theorem mem_keys_ofList {pairs : List (κ × ν)} : k ∈ (ofList pairs).keys ↔ k ∈ pairs.map Prod.fst := by
  rw [ofList, mem_keys_foldl_set]
  exact or_iff_right List.not_mem_nil

/-- No pair is lost exactly where no key comes with two values. -/
theorem subset_ofList_iff {pairs : List (κ × ν)} :
    pairs ⊆ (ofList pairs).entries ↔ ∀ e ∈ pairs, ∀ e' ∈ pairs, e.1 = e'.1 → e = e' := by
  constructor
  · intro h e he e' he' hkey
    exact List.inj_on_of_nodup_map (ofList pairs).nodup (h he) (h he') hkey
  · intro h e he
    obtain ⟨e', he', hkey⟩ := List.mem_map.mp (mem_keys_ofList.mpr (List.mem_map_of_mem he))
    exact h e' (mem_of_mem_ofList he') e he hkey ▸ he'

theorem map_set (f : ν → μ) (h : k ∉ d.keys) : (d.set k v).map f = (d.map f).set k (f v) := by
  ext1
  have hk : k ∉ (d.map f).keys := by rwa [keys_of_map]
  rw [set_of_not_mem hk]
  change (d.set k v).entries.map _ = d.entries.map _ ++ _
  rw [set_of_not_mem h, List.map_append]
  rfl

theorem map_erase (f : ν → μ) (d : Dict κ ν) (k : κ) : (d.erase k).map f = (d.map f).erase k := by
  ext1
  change (d.entries.filter _).map _ = (d.entries.map _).filter _
  rw [List.filter_map]
  rfl

theorem mem_values : v ∈ d.values ↔ ∃ k, d.get? k = some v := by
  simp only [values, List.mem_map, get?_eq_some, Prod.exists, exists_eq_right]

theorem mem_values_set {w : ν} (h : k ∉ d.keys) (hw : w ∈ (d.set k v).values) : w = v ∨ w ∈ d.values := by
  rw [values, set_of_not_mem h, List.map_append, List.mem_append] at hw
  rcases hw with hw | hw
  · exact .inr hw
  · exact .inl (by simpa using hw)

theorem mem_values_set_of_mem {w : ν} (h : k ∉ d.keys) (hw : w ∈ d.values) : w ∈ (d.set k v).values := by
  rw [values, set_of_not_mem h, List.map_append]
  exact List.mem_append_left _ hw

theorem mem_values_erase {w : ν} (hw : w ∈ (d.erase k).values) : w ∈ d.values := by
  obtain ⟨e, he, rfl⟩ := List.mem_map.mp hw
  exact List.mem_map_of_mem (List.mem_of_mem_filter he)

def total [Add A] [Zero A] (f : ν → A) (d : Dict κ ν) : A := (d.values.map f).sum

omit [DecidableEq κ] in
theorem total_map [Add A] [Zero A] (g : ν → μ) (f : μ → A) (d : Dict κ ν) :
    (d.map g).total f = d.total fun v => f (g v) := by
  simp only [total, values, map, List.map_map, Function.comp_def]

theorem total_set [AddMonoid A] (f : ν → A) (h : k ∉ d.keys) : (d.set k v).total f = d.total f + f v := by
  rw [total, values, set_of_not_mem h]
  simp [total, values]

theorem total_erase [AddCommMonoid A] (f : ν → A) (h : d.get? k = some v) :
    (d.erase k).total f + f v = d.total f := by
  obtain ⟨entries, hnodup⟩ := d
  rw [get?_eq_some] at h
  change (((entries.filter fun e => e.1 ≠ k).map Prod.snd).map f).sum + f v = ((entries.map Prod.snd).map f).sum
  obtain ⟨pre, rest, rfl⟩ := List.append_of_mem h
  have hapart : ∀ e ∈ pre ++ rest, e.1 ≠ k := by
    have hmiddle : (((k, v) :: (pre ++ rest)).map Prod.fst).Nodup :=
      (List.perm_middle.map Prod.fst).nodup_iff.mp hnodup
    intro e he hk
    exact (List.nodup_cons.mp hmiddle).1 (List.mem_map.mpr ⟨e, he, hk⟩)
  have hpre : pre.filter (fun e => e.1 ≠ k) = pre :=
    List.filter_eq_self.mpr fun e he => by simpa using hapart e (List.mem_append_left _ he)
  have hrest : rest.filter (fun e => e.1 ≠ k) = rest :=
    List.filter_eq_self.mpr fun e he => by simpa using hapart e (List.mem_append_right _ he)
  rw [List.filter_append, List.filter_cons_of_neg (by simp), hpre, hrest]
  simp only [List.map_append, List.map_cons, List.sum_append, List.sum_cons]
  rw [add_assoc, add_comm (List.sum _) (f v)]

theorem get?_update (d : Dict κ ν) (k j : κ) (g : ν → ν) :
    (d.update k g).get? j = if j = k then (d.get? j).map g else d.get? j := by
  obtain ⟨entries, hnodup⟩ := d
  change (entries.map (revise g k)).lookup j = if j = k then (entries.lookup j).map g else entries.lookup j
  clear hnodup
  induction entries with
  | nil => simp
  | cons e rest ih =>
      rw [List.map_cons, List.lookup_cons, List.lookup_cons]
      cases hj : j == (revise g k e).1 with
      | true =>
          have hkey : j = e.1 := eq_of_beq hj
          simp only [hkey, beq_self_eq_true, revise]
          split <;> rfl
      | false =>
          rw [show (j == e.1) = false from hj]
          exact ih

theorem get?_erase (d : Dict κ ν) (k j : κ) : (d.erase k).get? j = if j = k then none else d.get? j := by
  split
  next hj =>
    rw [get?_eq_none, hj]
    rintro hmem
    obtain ⟨e, he, hkey⟩ := List.mem_map.mp hmem
    exact (of_decide_eq_true (List.mem_filter.mp he).2) hkey
  next hj =>
    ext v
    rw [get?_eq_some, get?_eq_some]
    simp [erase, hj]

theorem get?_set_of_ne (d : Dict κ ν) {k j : κ} (v : ν) (hj : j ≠ k) : (d.set k v).get? j = d.get? j := by
  unfold set
  split
  · rw [get?_update, if_neg hj]
  next hk =>
    ext w
    rw [get?_eq_some, get?_eq_some, List.mem_append, List.mem_singleton]
    simp [hj]

theorem get?_foldl_set {pairs : List (κ × ν)} (h : ∀ e ∈ pairs, e.1 ≠ k) (d : Dict κ ν) :
    (pairs.foldl (fun d e => d.set e.1 e.2) d).get? k = d.get? k := by
  induction pairs generalizing d with
  | nil => rfl
  | cons e pairs ih =>
      have hrest : ∀ e' ∈ pairs, e'.1 ≠ k := fun e' he => h e' (List.mem_cons_of_mem e he)
      rw [List.foldl_cons, ih hrest, get?_set_of_ne d e.2 (h e (List.mem_cons_self ..)).symm]

/-- Of a key, the value that it is given last. -/
theorem get?_ofList {before after : List (κ × ν)} (h : ∀ e ∈ after, e.1 ≠ k) :
    (ofList (before ++ (k, v) :: after)).get? k = some v := by
  rw [ofList, List.foldl_append, List.foldl_cons, get?_foldl_set h, get?_set_self]

end Dict

end Aetheris.Lib
