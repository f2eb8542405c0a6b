import Mathlib.Data.List.Induction
import Aetheris.Lib.Dict

namespace Aetheris.Lib.IndexedLog

variable {κ ν : Type} [DecidableEq κ] (key : ν → κ) (limit : Nat)

/-- The newest entries of a log, as many as it may hold. -/
def newest (log : List ν) : List ν := log.drop (log.length - limit)

/-- Forget the index entries of what the log no longer holds. -/
def evict (log : List ν) (index : Dict κ ν) : Dict κ ν :=
  (log.take (log.length - limit)).foldl (fun index v => index.erase (key v)) index

/-- The index of a log that is read from its oldest entry: the last of a key stays. -/
def rebuild (log : List ν) : Dict κ ν := log.foldl (fun index v => index.set (key v) v) .empty

/-- The index maps the keys of the log to its entries, and the log is no longer than it may be. -/
structure Exact (log : List ν) (index : Dict κ ν) : Prop where
  distinct : (log.map key).Nodup
  index : index.entries = log.map fun v => (key v, v)
  bounded : log.length ≤ limit

variable {key limit} {log : List ν} {index : Dict κ ν} {v : ν}

omit [DecidableEq κ] in
theorem length_newest (log : List ν) : (newest limit log).length ≤ limit := by
  rw [newest, List.length_drop]
  omega

omit [DecidableEq κ] in
theorem keys_of_entries (h : index.entries = log.map fun v => (key v, v)) : index.keys = log.map key := by
  rw [Dict.keys, h, List.map_map]
  rfl

theorem entries_foldl_erase (old : List ν) {rest : List ν} (hdistinct : ((old ++ rest).map key).Nodup)
    (h : index.entries = (old ++ rest).map fun v => (key v, v)) :
    (old.foldl (fun index v => index.erase (key v)) index).entries = rest.map fun v => (key v, v) := by
  induction old generalizing index with
  | nil => exact h
  | cons v old ih =>
      rw [List.cons_append, List.map_cons, List.nodup_cons] at hdistinct
      refine ih hdistinct.2 ?_
      change index.entries.filter _ = _
      rw [h, List.cons_append, List.map_cons, List.filter_cons_of_neg (by simp), List.filter_eq_self]
      intro e he
      obtain ⟨w, hw, rfl⟩ := List.mem_map.mp he
      have hother : key w ≠ key v := fun hsame => hdistinct.1 (hsame ▸ List.mem_map_of_mem hw)
      simpa using hother

theorem Exact.get?_eq_some (h : Exact key limit log index) {k : κ} : index.get? k = some v ↔ v ∈ log ∧ key v = k := by
  rw [Dict.get?_eq_some, h.index, List.mem_map]
  constructor
  · rintro ⟨w, hw, hpair⟩
    obtain ⟨rfl, rfl⟩ := Prod.mk.inj hpair
    exact ⟨hw, rfl⟩
  · rintro ⟨hv, rfl⟩
    exact ⟨v, hv, rfl⟩

theorem Exact.get?_eq_none (h : Exact key limit log index) {k : κ} : index.get? k = none ↔ k ∉ log.map key := by
  rw [Dict.get?_eq_none, keys_of_entries h.index]

/-- An entry under a new key keeps the log and its index in step. -/
theorem Exact.push (h : Exact key limit log index) (hfresh : key v ∉ log.map key) :
    Exact key limit (newest limit (log ++ [v])) (evict key limit (log ++ [v]) (index.set (key v) v)) := by
  have hdistinct : ((log ++ [v]).map key).Nodup := by
    rw [List.map_append]
    refine h.distinct.append (List.nodup_singleton _) ?_
    intro k hk hsame
    rw [List.map_singleton, List.mem_singleton] at hsame
    exact hfresh (hsame ▸ hk)
  have hkeys : key v ∉ index.keys := by rwa [keys_of_entries h.index]
  have hset : (index.set (key v) v).entries = (log ++ [v]).map fun v => (key v, v) := by
    rw [Dict.set_of_not_mem hkeys, h.index, List.map_append]
    rfl
  have hsplit : (log ++ [v]).take ((log ++ [v]).length - limit) ++ newest limit (log ++ [v]) = log ++ [v] :=
    List.take_append_drop ..
  refine ⟨hdistinct.sublist ((List.drop_sublist _ _).map key), ?_, length_newest _⟩
  refine entries_foldl_erase _ ?_ ?_
  · rwa [hsplit]
  · rwa [hsplit]

omit [DecidableEq κ] in
theorem exact_nil : Exact key limit [] Dict.empty := ⟨.nil, rfl, Nat.zero_le _⟩

theorem rebuild_eq_ofList (log : List ν) : rebuild key log = Dict.ofList (log.map fun v => (key v, v)) := by
  rw [rebuild, Dict.ofList, List.foldl_map]

theorem rebuild_append (log : List ν) (v : ν) : rebuild key (log ++ [v]) = (rebuild key log).set (key v) v := by
  rw [rebuild, List.foldl_append]
  rfl

theorem mem_keys_rebuild {k : κ} : k ∈ (rebuild key log).keys ↔ k ∈ log.map key := by
  rw [rebuild_eq_ofList, Dict.mem_keys_ofList, List.map_map]
  rfl

theorem entries_foldl_set {rest : List ν} {d e f : Dict κ ν} (hf : f.entries = d.entries ++ e.entries)
    (hapart : ∀ v ∈ rest, key v ∉ d.keys) :
    (rest.foldl (fun index v => index.set (key v) v) f).entries =
      d.entries ++ (rest.foldl (fun index v => index.set (key v) v) e).entries := by
  induction rest generalizing e f with
  | nil => exact hf
  | cons v rest ih =>
      have hfirst := Dict.entries_set_append (v := v) hf (hapart v (List.mem_cons_self ..))
      exact ih hfirst fun w hw => hapart w (List.mem_cons_of_mem _ hw)

theorem entries_evicted (old : List ν) (d : Dict κ ν) :
    (old.foldl (fun index v => index.erase (key v)) d).entries = d.entries.filter fun e => e.1 ∉ old.map key := by
  induction old generalizing d with
  | nil => simp
  | cons v old ih =>
      rw [List.foldl_cons, ih]
      change (d.entries.filter _).filter _ = _
      rw [List.filter_filter]
      refine List.filter_congr fun e _ => ?_
      simp only [List.map_cons, List.mem_cons, not_or, Bool.decide_and, ne_eq]
      exact Bool.and_comm ..

theorem mem_keys_evict {k : κ} : k ∈ (evict key limit log index).keys ↔
    k ∈ index.keys ∧ k ∉ (log.take (log.length - limit)).map key := by
  simp only [evict, Dict.keys, entries_evicted, List.mem_map, List.mem_filter, decide_eq_true_eq]
  constructor
  · rintro ⟨e, ⟨he, hkept⟩, rfl⟩
    exact ⟨⟨e, he, rfl⟩, hkept⟩
  · rintro ⟨⟨e, he, rfl⟩, hkept⟩
    exact ⟨e, ⟨he, hkept⟩, rfl⟩

/-- No entry leaves a log under a key that one of those that stay has. -/
def Retires (key : ν → κ) (limit : Nat) (log : List ν) : Prop :=
  ∀ v ∈ log.take (log.length - limit), key v ∉ (newest limit log).map key

omit [DecidableEq κ] in
theorem retires_map : Retires (fun k => k) limit (log.map key) ↔ Retires key limit log := by
  simp only [Retires, newest, List.length_map, ← List.map_take, ← List.map_drop, List.forall_mem_map, List.map_id']

/-- What is evicted with its index entry leaves the index that the rest of the
log rebuilds exactly where no key of it is kept by the rest. -/
theorem evict_rebuild_iff :
    evict key limit log (rebuild key log) = rebuild key (newest limit log) ↔ Retires key limit log := by
  constructor
  · intro heq v hv hkept
    have hmem : key v ∈ (evict key limit log (rebuild key log)).keys := by
      rwa [heq, mem_keys_rebuild]
    exact (mem_keys_evict.mp hmem).2 (List.mem_map_of_mem hv)
  · intro h
    obtain ⟨old, hold⟩ : ∃ old, log.take (log.length - limit) = old := ⟨_, rfl⟩
    have hsplit : log = old ++ newest limit log := hold ▸ (List.take_append_drop ..).symm
    have hentries : (rebuild key log).entries =
        (rebuild key old).entries ++ (rebuild key (newest limit log)).entries := by
      conv_lhs => rw [rebuild, hsplit, List.foldl_append]
      refine entries_foldl_set (List.append_nil _).symm fun v hv hk => ?_
      obtain ⟨w, hw, hsame⟩ := List.mem_map.mp (mem_keys_rebuild.mp hk)
      exact h w (hold ▸ hw) (hsame ▸ List.mem_map_of_mem hv)
    ext1
    rw [evict, entries_evicted, hold, hentries, List.filter_append]
    have hgone : (rebuild key old).entries.filter (fun e => e.1 ∉ old.map key) = [] := by
      refine List.filter_eq_nil_iff.mpr fun e he => ?_
      simpa using mem_keys_rebuild.mp (List.mem_map_of_mem he)
    have hkept : (rebuild key (newest limit log)).entries.filter (fun e => e.1 ∉ old.map key) =
        (rebuild key (newest limit log)).entries := by
      refine List.filter_eq_self.mpr fun e he => decide_eq_true fun hold' => ?_
      obtain ⟨w, hw, hsame⟩ := List.mem_map.mp hold'
      exact h w (hold ▸ hw) (hsame ▸ mem_keys_rebuild.mp (List.mem_map_of_mem he))
    rw [hgone, hkept, List.nil_append]

/-- Of a key the log has one entry at most, and the index has it while the log does. -/
structure Tracks (key : ν → κ) (k : κ) (log : List ν) (index : Dict κ ν) : Prop where
  once : (log.map key).count k ≤ 1
  indexed : k ∈ log.map key → k ∈ index.keys

theorem tracks_nil {k : κ} : Tracks key k [] index := ⟨Nat.zero_le _, fun hk => nomatch hk⟩

/-- What leaves the log takes from the index no key that it still has, as long as
none comes in that it has. -/
theorem Tracks.push {k : κ} (h : Tracks key k log index) (hnew : key v = k → k ∉ log.map key) :
    Tracks key k (newest limit (log ++ [v])) (evict key limit (log ++ [v]) (index.set (key v) v)) := by
  have hcount : ((log ++ [v]).map key).count k ≤ 1 := by
    rw [List.map_append, List.count_append, List.map_singleton]
    by_cases hk : key v = k
    · rw [List.count_eq_zero_of_not_mem (hnew hk), Nat.zero_add]
      exact List.count_le_length
    · rw [List.count_singleton, beq_false_of_ne hk]
      exact h.once
  obtain ⟨old, hold⟩ : ∃ old, (log ++ [v]).take ((log ++ [v]).length - limit) = old := ⟨_, rfl⟩
  have hsplit : log ++ [v] = old ++ newest limit (log ++ [v]) := hold ▸ (List.take_append_drop ..).symm
  have hsum : (old.map key).count k + ((newest limit (log ++ [v])).map key).count k ≤ 1 := by
    rw [← List.count_append, ← List.map_append, ← hsplit]
    exact hcount
  refine ⟨by omega, fun hk => mem_keys_evict.mpr ⟨?_, fun hgone => ?_⟩⟩
  · have hlogged : k ∈ (log ++ [v]).map key := List.map_subset key (List.drop_subset ..) hk
    rw [List.map_append, List.mem_append, List.map_singleton, List.mem_singleton] at hlogged
    exact Dict.mem_keys_set_iff.mpr (hlogged.symm.imp_right h.indexed)
  · have hkept := List.count_pos_iff.mpr hk
    have hleft := List.count_pos_iff.mpr (hold ▸ hgone)
    omega

end Aetheris.Lib.IndexedLog
