import Mathlib.Algebra.Ring.Int.Defs
import Aetheris.Lib.Recency

namespace Aetheris.MarketCache

open Lib Recency

section Cache

variable {V T : Type} [LinearOrder T] [Add T] [Zero T]

structure Entry (V T : Type) where
  value : V
  expiresAt : T

/-- A cache that drops the entry used least recently, with one time to live for all of them. -/
structure TTLCache (V T : Type) [LinearOrder T] [Zero T] where
  ttl : T
  maxEntries : Nat
  entries : Dict String (Entry V T)
  hits : Nat
  misses : Nat
  ttl_pos : 0 < ttl
  one_le_maxEntries : 1 ≤ maxEntries

omit [Add T] in
/-- A new cache; a value error of this text where the bounds make no sense. -/
def TTLCache.new (V : Type) (ttlSeconds : T) (maxEntries : Nat) : Except String (TTLCache V T) :=
  if httl : 0 < ttlSeconds then
    if hmax : 1 ≤ maxEntries then .ok ⟨ttlSeconds, maxEntries, .empty, 0, 0, httl, hmax⟩
    else .error "max_entries must be at least 1"
  else .error "ttl_seconds must be positive"

/-- The value under the key, if it has not expired at the reading of the clock. -/
def TTLCache.get (cache : TTLCache V T) (key : String) (now : T) : Option V × TTLCache V T :=
  match cache.entries.get? key with
  | none => (none, { cache with misses := cache.misses + 1 })
  | some entry =>
      if entry.expiresAt ≤ now then
        (none, { cache with entries := cache.entries.erase key, misses := cache.misses + 1 })
      else (some entry.value, { cache with entries := cache.entries.moveToEnd key, hits := cache.hits + 1 })

def TTLCache.set (cache : TTLCache V T) (key : String) (value : V) (now : T) : TTLCache V T :=
  { cache with
    entries := ((cache.entries.set key ⟨value, now + cache.ttl⟩).moveToEnd key).trim cache.maxEntries }

def TTLCache.invalidate (cache : TTLCache V T) (key : String) : TTLCache V T :=
  { cache with entries := cache.entries.erase key }

def TTLCache.clear (cache : TTLCache V T) : TTLCache V T := { cache with entries := .empty }

def TTLCache.size (cache : TTLCache V T) : Nat := cache.entries.size

def TTLCache.stats (cache : TTLCache V T) : List (String × Nat) :=
  [("entries", cache.size), ("max_entries", cache.maxEntries), ("hits", cache.hits), ("misses", cache.misses)]

end Cache

section Calls

variable {V T : Type} [LinearOrder T] [Add T] [Zero T]

/-- The calls, with what the clock reads where they look at it. -/
inductive Op (V T : Type)
  | get (key : String) (now : T)
  | set (key : String) (value : V) (now : T)
  | invalidate (key : String)
  | clear

def Op.clock : Op V T → List T
  | .get _ now => [now]
  | .set _ _ now => [now]
  | .invalidate _ => []
  | .clear => []

def TTLCache.call (cache : TTLCache V T) : Op V T → Option V × TTLCache V T
  | .get key now => cache.get key now
  | .set key value now => (none, cache.set key value now)
  | .invalidate key => (none, cache.invalidate key)
  | .clear => (none, cache.clear)

def run : TTLCache V T → List (Op V T) → TTLCache V T
  | cache, [] => cache
  | cache, op :: ops => run (cache.call op).2 ops

/-- The calls with their answers. -/
def answers : TTLCache V T → List (Op V T) → List (Op V T × Option V)
  | _, [] => []
  | cache, op :: ops => (op, (cache.call op).1) :: answers (cache.call op).2 ops

omit [LinearOrder T] [Add T] [Zero T] in
/-- A map that forgets nothing of itself: the value of the latest set of each key and when that was. -/
def remember (latest : String → Option (V × T)) : Op V T → String → Option (V × T)
  | .get _ _ => latest
  | .set key value now => Function.update latest key (some (value, now))
  | .invalidate key => Function.update latest key none
  | .clear => fun _ => none

def latestSets (ops : List (Op V T)) : String → Option (V × T) := ops.foldl remember fun _ => none

/-- The key that a call sets or reads with a hit. -/
def touched : Op V T × Option V → Option String
  | (.get key _, some _) => some key
  | (.set key _ _, _) => some key
  | _ => none

def noteTouch (since : String → Finset String) (call : Op V T × Option V) : String → Finset String :=
  match touched call with
  | some key => touch key since
  | none => since

/-- The other keys that were set or read with a hit since that last happened to each key. -/
def touchedSince (calls : List (Op V T × Option V)) : String → Finset String := calls.foldl noteTouch fun _ => ∅

end Calls

section Invariant

variable {V T : Type} [LinearOrder T] [Add T] [Zero T] {cache : TTLCache V T} {latest : String → Option (V × T)}
  {since : String → Finset String} {later : List T} {key : String} {now : T}

/-- The cache against the map that forgets nothing, for the readings of the clock that are to come. -/
structure Holds (later : List T) (cache : TTLCache V T) (latest : String → Option (V × T))
    (since : String → Finset String) : Prop where
  bounded : cache.size ≤ cache.maxEntries
  known : ∀ key entry, cache.entries.get? key = some entry →
    ∃ t, latest key = some (entry.value, t) ∧ entry.expiresAt = t + cache.ttl
  recent : Recent since cache.entries.keys
  kept : ∀ key v t, latest key = some (v, t) → key ∉ cache.entries.keys →
    (∀ now ∈ later, t + cache.ttl ≤ now) ∨ cache.maxEntries ≤ (since key).card

theorem Holds.mono (h : Holds later cache latest since) {later' : List T} (hlater : later' ⊆ later) :
    Holds later' cache latest since where
  bounded := h.bounded
  known := h.known
  recent := h.recent
  kept key v t hlatest hgone := (h.kept key v t hlatest hgone).imp_left fun hexpired now hnow => hexpired now (hlater hnow)

/-- A key that is found is touched. -/
theorem Holds.hit (h : Holds later cache latest since) (hkey : key ∈ cache.entries.keys) (hits : Nat) :
    Holds later { cache with entries := cache.entries.moveToEnd key, hits := hits } latest (touch key since) := by
  have hkeys := Dict.keys_moveToEnd hkey
  have hmem (j : String) : j ∈ (cache.entries.moveToEnd key).keys ↔ j ∈ cache.entries.keys := by
    rw [← not_iff_not, ← Dict.get?_eq_none, ← Dict.get?_eq_none, Dict.get?_moveToEnd]
  refine ⟨?_, ?_, ?_, ?_⟩
  · exact (Dict.size_moveToEnd cache.entries key).trans_le h.bounded
  · intro j entry hentry
    rw [Dict.get?_moveToEnd] at hentry
    exact h.known j entry hentry
  · change Recent _ (cache.entries.moveToEnd key).keys
    rw [hkeys]
    exact h.recent.touch key
  · intro j v t hlatest hgone
    have hgone : j ∉ cache.entries.keys := fun hj => hgone ((hmem j).mpr hj)
    have hne : j ≠ key := fun hsame => hgone (hsame ▸ hkey)
    exact (h.kept j v t hlatest hgone).imp_right fun hcard => hcard.trans (card_le_touch since hne)

/-- A key that is taken away has expired, or is not in the map either. -/
theorem Holds.erase (h : Holds later cache latest since) {latest' : String → Option (V × T)}
    (hother : ∀ j, j ≠ key → latest' j = latest j)
    (hself : ∀ v t, latest' key = some (v, t) → ∀ now ∈ later, t + cache.ttl ≤ now) (misses : Nat) :
    Holds later { cache with entries := cache.entries.erase key, misses := misses } latest' since := by
  refine ⟨?_, ?_, ?_, ?_⟩
  · exact (List.length_filter_le _ _).trans h.bounded
  · intro j entry hentry
    change (cache.entries.erase key).get? j = some entry at hentry
    rw [Dict.get?_erase] at hentry
    split at hentry
    · cases hentry
    · rename_i hne
      rw [hother j hne]
      exact h.known j entry hentry
  · change Recent since (cache.entries.erase key).keys
    rw [Dict.keys_erase]
    exact h.recent.sublist List.filter_sublist
  · intro j v t hlatest hgone
    change j ∉ (cache.entries.erase key).keys at hgone
    rw [Dict.keys_erase, List.mem_filter] at hgone
    by_cases hne : j = key
    · subst hne
      exact .inl (hself v t hlatest)
    · rw [hother j hne] at hlatest
      exact h.kept j v t hlatest fun hj => hgone ⟨hj, by simpa using hne⟩

/-- A key that is set is the last, and what falls out for it has seen a whole cache of others. -/
theorem Holds.set (h : Holds later cache latest since) (value : V) :
    Holds later (cache.set key value now) (Function.update latest key (some (value, now))) (touch key since) := by
  have hkeys := Dict.keys_set_moveToEnd cache.entries key ⟨value, now + cache.ttl⟩
  have hnodup := ((cache.entries.set key ⟨value, now + cache.ttl⟩).moveToEnd key).nodup
  have hrecent : Recent (touch key since) ((cache.entries.set key ⟨value, now + cache.ttl⟩).moveToEnd key).keys := by
    rw [hkeys]
    exact h.recent.touch key
  refine ⟨Dict.size_trim_le _ _, ?_, ?_, ?_⟩
  · intro j entry hentry
    have hentry := Dict.get?_of_trim hentry
    rw [Dict.get?_moveToEnd] at hentry
    by_cases hne : j = key
    · subst hne
      rw [Dict.get?_set_self] at hentry
      obtain rfl := Option.some.inj hentry
      exact ⟨now, Function.update_self .., rfl⟩
    · rw [Dict.get?_set_of_ne _ _ hne] at hentry
      rw [Function.update_of_ne hne]
      exact h.known j entry hentry
  · change Recent _ (Dict.trim _ _).keys
    rw [Dict.keys_trim]
    exact hrecent.sublist (List.drop_sublist _ _)
  · intro j v t hlatest hgone
    change j ∉ (Dict.trim _ _).keys at hgone
    rw [Dict.keys_trim] at hgone
    by_cases hthere : j ∈ ((cache.entries.set key ⟨value, now + cache.ttl⟩).moveToEnd key).keys
    · refine .inr ?_
      have hcard := hrecent.card_of_dropped hnodup hthere hgone
      have hfull : cache.maxEntries < ((cache.entries.set key ⟨value, now + cache.ttl⟩).moveToEnd key).keys.length := by
        by_contra hfits
        rw [Nat.sub_eq_zero_of_le (not_lt.mp hfits), List.drop_zero] at hgone
        exact hgone hthere
      change cache.maxEntries ≤ _
      omega
    · rw [hkeys, List.mem_append, List.mem_filter, List.mem_singleton, not_or] at hthere
      obtain ⟨hold, hne⟩ := hthere
      rw [Function.update_of_ne hne] at hlatest
      exact (h.kept j v t hlatest fun hj => hold ⟨hj, by simpa using hne⟩).imp_right fun hcard =>
        hcard.trans (card_le_touch since hne)

theorem holds_clear (later : List T) (cache : TTLCache V T) (since : String → Finset String) :
    Holds later cache.clear (fun _ => none) since where
  bounded := Nat.zero_le _
  known _ _ hentry := nomatch hentry
  recent := .nil
  kept _ _ _ hlatest := nomatch hlatest

theorem Holds.miss (h : Holds later cache latest since) (misses : Nat) :
    Holds later { cache with misses := misses } latest since := ⟨h.bounded, h.known, h.recent, h.kept⟩

/-- One call: what the clock reads in it comes no later than what it reads afterwards. -/
theorem Holds.call {op : Op V T} (h : Holds (op.clock ++ later) cache latest since)
    (hclock : ∀ now ∈ op.clock, ∀ next ∈ later, now ≤ next) :
    Holds later (cache.call op).2 (remember latest op) (noteTouch since (op, (cache.call op).1)) := by
  have hlater : Holds later cache latest since := h.mono (List.subset_append_right _ _)
  cases op with
  | get key now =>
      change Holds later (cache.get key now).2 latest (noteTouch since (.get key now, (cache.get key now).1))
      rw [TTLCache.get]
      cases hentry : cache.entries.get? key with
      | none => exact hlater.miss _
      | some entry =>
          dsimp only
          split
          · rename_i hexpired
            obtain ⟨t, hlatest, hdeadline⟩ := h.known key entry hentry
            refine hlater.erase (fun _ _ => rfl) (fun v t' hlatest' next hnext => ?_) _
            obtain rfl : t = t' := by
              rw [hlatest] at hlatest'
              exact congrArg Prod.snd (Option.some.inj hlatest')
            rw [← hdeadline]
            exact hexpired.trans (hclock now (List.mem_singleton_self now) next hnext)
          · have hkey : key ∈ cache.entries.keys := by
              by_contra hgone
              rw [Dict.get?_eq_none.mpr hgone] at hentry
              cases hentry
            exact hlater.hit hkey _
  | set key value now => exact hlater.set value
  | invalidate key =>
      refine hlater.erase (fun j hj => Function.update_of_ne hj _ _) (fun v t hlatest => ?_) _
      rw [remember, Function.update_self] at hlatest
      cases hlatest
  | clear => exact holds_clear later cache _

/-- And all calls. -/
theorem Holds.run {ops : List (Op V T)} (h : Holds (ops.flatMap Op.clock ++ later) cache latest since)
    (hclock : (ops.flatMap Op.clock ++ later).Pairwise (· ≤ ·)) :
    Holds later (run cache ops) (ops.foldl remember latest) ((answers cache ops).foldl noteTouch since) := by
  induction ops generalizing cache latest since with
  | nil => exact h
  | cons op ops ih =>
      rw [List.flatMap_cons, List.append_assoc] at h hclock
      obtain ⟨-, hrest, hfirst⟩ := List.pairwise_append.mp hclock
      exact ih (h.call hfirst) hrest

theorem run_ttl (cache : TTLCache V T) (ops : List (Op V T)) :
    (run cache ops).ttl = cache.ttl ∧ (run cache ops).maxEntries = cache.maxEntries := by
  induction ops generalizing cache with
  | nil => exact ⟨rfl, rfl⟩
  | cons op ops ih =>
      have hcall : (cache.call op).2.ttl = cache.ttl ∧ (cache.call op).2.maxEntries = cache.maxEntries := by
        cases op with
        | get key now =>
            rw [TTLCache.call, TTLCache.get]
            cases cache.entries.get? key with
            | none => exact ⟨rfl, rfl⟩
            | some entry =>
                dsimp only
                split
                · exact ⟨rfl, rfl⟩
                · exact ⟨rfl, rfl⟩
        | set key value now => exact ⟨rfl, rfl⟩
        | invalidate key => exact ⟨rfl, rfl⟩
        | clear => exact ⟨rfl, rfl⟩
      exact ⟨(ih _).1.trans hcall.1, (ih _).2.trans hcall.2⟩

end Invariant

section Runs

variable {V T : Type} [LinearOrder T] [Add T] [Zero T]

/-- The cache is bounded, answers with what was set last and has not expired, and still has a key as long as fewer
others than it can hold were set or read with a hit since. -/
theorem ttlCache_spec {ttl : T} {maxEntries : Nat} {cache : TTLCache V T} (hnew : TTLCache.new V ttl maxEntries = .ok cache)
    {ops : List (Op V T)} (hclock : (ops.flatMap Op.clock).Pairwise (· ≤ ·)) :
    (run cache ops).size ≤ maxEntries ∧
      ∀ key now, (∀ t ∈ ops.flatMap Op.clock, t ≤ now) →
        (∀ v, ((run cache ops).get key now).1 = some v → ∃ t, latestSets ops key = some (v, t) ∧ now < t + ttl) ∧
        ∀ v t, latestSets ops key = some (v, t) → now < t + ttl →
          (touchedSince (answers cache ops) key).card < maxEntries → ((run cache ops).get key now).1 = some v := by
  obtain ⟨hfresh, httl, hmax⟩ : cache.entries = .empty ∧ cache.ttl = ttl ∧ cache.maxEntries = maxEntries := by
    rw [TTLCache.new] at hnew
    split at hnew
    · split at hnew
      · obtain rfl := Except.ok.inj hnew
        exact ⟨rfl, rfl, rfl⟩
      · cases hnew
    · cases hnew
  obtain ⟨hrunTtl, hrunMax⟩ := run_ttl cache ops
  rw [httl] at hrunTtl
  rw [hmax] at hrunMax
  have hstart (later : List T) : Holds later cache (fun _ => none) fun _ => ∅ := by
    have hclear := holds_clear later cache fun _ => (∅ : Finset String)
    rwa [TTLCache.clear, ← hfresh] at hclear
  refine ⟨?_, fun key now hnow => ?_⟩
  · have hend := ((hstart _).run (by rwa [List.append_nil])).bounded
    rwa [hrunMax] at hend
  · have hlast : (ops.flatMap Op.clock ++ [now]).Pairwise (· ≤ ·) :=
      List.pairwise_append.mpr ⟨hclock, List.pairwise_singleton _ now, fun t ht next hnext =>
        List.mem_singleton.mp hnext ▸ hnow t ht⟩
    have hend := (hstart _).run hlast
    rw [TTLCache.get]
    constructor
    · intro v hv
      cases hentry : (run cache ops).entries.get? key with
      | none =>
          rw [hentry] at hv
          cases hv
      | some entry =>
          rw [hentry] at hv
          dsimp only at hv
          split at hv
          · cases hv
          · rename_i hlive
            obtain ⟨t, hlatest, hdeadline⟩ := hend.known key entry hentry
            obtain rfl := Option.some.inj hv
            refine ⟨t, hlatest, ?_⟩
            rwa [hdeadline, hrunTtl, not_le] at hlive
    · intro v t hlatest hlive hfew
      have hthere : key ∈ (run cache ops).entries.keys := by
        by_contra hgone
        rcases hend.kept key v t hlatest hgone with hexpired | hfull
        · have hexpired := hexpired now (List.mem_singleton_self now)
          rw [hrunTtl] at hexpired
          exact absurd hlive (not_lt.mpr hexpired)
        · rw [hrunMax] at hfull
          exact absurd hfew (not_lt.mpr hfull)
      obtain ⟨entry, hentry⟩ : ∃ entry, (run cache ops).entries.get? key = some entry := by
        rw [← Option.ne_none_iff_exists', ne_eq, Dict.get?_eq_none]
        exact not_not_intro hthere
      obtain ⟨t', hlatest', hdeadline⟩ := hend.known key entry hentry
      have hsame : some (v, t) = some (entry.value, t') := hlatest.symm.trans hlatest'
      obtain ⟨rfl, rfl⟩ := Prod.mk.inj (Option.some.inj hsame)
      rw [hentry]
      dsimp only
      rw [if_neg (by rw [hdeadline, hrunTtl]; exact not_le.mpr hlive)]

/-- Of two places, one is taken by a key that comes later; what was read before stays. -/
theorem ttlCache_spec_pair : ∃ cache : TTLCache Nat Int, TTLCache.new Nat 5 2 = .ok cache ∧
    (run cache [.set "a" 1 0, .set "b" 2 1, .get "a" 2, .set "c" 3 3]).size ≤ 2 ∧
    ((run cache [.set "a" 1 0, .set "b" 2 1, .get "a" 2, .set "c" 3 3]).get "a" 4).1 = some 1 := by
  have hnew : TTLCache.new Nat (5 : Int) 2 = .ok ⟨5, 2, .empty, 0, 0, by decide, by decide⟩ := rfl
  have hclock : (([.set "a" 1 0, .set "b" 2 1, .get "a" 2, .set "c" 3 3] : List (Op Nat Int)).flatMap
      Op.clock).Pairwise (· ≤ ·) := by decide
  obtain ⟨hsize, hanswers⟩ := ttlCache_spec hnew hclock
  exact ⟨_, hnew, hsize, (hanswers "a" 4 (by decide)).2 1 0 (by decide) (by decide) (by decide)⟩

end Runs

end Aetheris.MarketCache
