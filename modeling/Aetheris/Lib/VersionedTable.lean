import Aetheris.Lib.Walk
import Mathlib.Data.List.Nodup

namespace Aetheris.Lib

variable {α κ : Type} [DecidableEq κ]

def versions (key : α → κ) (k : κ) (stored : List α) : List α :=
  stored.filter (fun a => decide (key a = k))

/-- Rows kept in insertion order under a unique key, together with every
version the table was ever handed. -/
structure VersionedTable (key : α → κ) where
  rows : List α
  nodup : (rows.map key).Nodup
  stored : List α
  current : ∀ k, (versions key k stored).getLast? = rows.find? (fun a => decide (key a = k))

theorem versions_append (key : α → κ) (k : κ) (xs ys : List α) :
    versions key k (xs ++ ys) = versions key k xs ++ versions key k ys := by
  simp [versions]

theorem versions_singleton_self (key : α → κ) (a : α) : versions key (key a) [a] = [a] := by
  simp [versions]

theorem versions_singleton_ne {key : α → κ} {k : κ} {a : α} (h : key a ≠ k) :
    versions key k [a] = [] := by
  simp [versions, h]

theorem mem_versions {key : α → κ} {k : κ} {stored : List α} {a : α} :
    a ∈ versions key k stored ↔ a ∈ stored ∧ key a = k := by
  simp [versions]

def upsert (key : α → κ) (a : α) : List α → List α
  | [] => [a]
  | b :: bs => if key b = key a then a :: bs else b :: upsert key a bs

theorem mem_keys_upsert (key : α → κ) (a : α) (xs : List α) (k : κ) :
    k ∈ (upsert key a xs).map key ↔ k = key a ∨ k ∈ xs.map key := by
  induction xs with
  | nil => simp [upsert]
  | cons b bs ih =>
      by_cases h : key b = key a
      · simp [upsert, h]
      · simp only [upsert, if_neg h, List.map_cons, List.mem_cons, ih]
        tauto

theorem nodup_upsert {key : α → κ} {xs : List α} (h : (xs.map key).Nodup) (a : α) :
    ((upsert key a xs).map key).Nodup := by
  induction xs with
  | nil => simp [upsert]
  | cons b bs ih =>
      obtain ⟨hb, hbs⟩ := List.nodup_cons.mp h
      by_cases he : key b = key a
      · rw [upsert, if_pos he, List.map_cons, ← he]
        exact List.nodup_cons.mpr ⟨hb, hbs⟩
      · rw [upsert, if_neg he, List.map_cons, List.nodup_cons, mem_keys_upsert]
        exact ⟨not_or.mpr ⟨he, hb⟩, ih hbs⟩

/-- A row under a key that is not there yet comes last. -/
theorem upsert_of_new {key : α → κ} {a : α} {xs : List α} (h : ∀ b ∈ xs, key b ≠ key a) :
    upsert key a xs = xs ++ [a] := by
  induction xs with
  | nil => rfl
  | cons b bs ih =>
      rw [upsert, if_neg (h b List.mem_cons_self), ih fun c hc => h c (List.mem_cons_of_mem b hc), List.cons_append]

/-- A row under a key that is there takes the place of the row before it. -/
theorem upsert_of_mem {key : α → κ} {a : α} {xs : List α} (hn : (xs.map key).Nodup) (h : key a ∈ xs.map key) :
    upsert key a xs = xs.map fun b => if key b = key a then a else b := by
  induction xs with
  | nil => cases h
  | cons b bs ih =>
      obtain ⟨hb, hbs⟩ := List.nodup_cons.mp hn
      by_cases he : key b = key a
      · have hrest : bs.map (fun c => if key c = key a then a else c) = bs := by
          refine (List.map_congr_left fun c hc => if_neg ?_).trans (List.map_id _)
          exact fun hk => hb (List.mem_map.mpr ⟨c, hc, hk.trans he.symm⟩)
        rw [upsert, if_pos he, List.map_cons, if_pos he, hrest]
      · have htail : key a ∈ bs.map key := (List.mem_cons.mp h).resolve_left fun hk => he hk.symm
        rw [upsert, if_neg he, List.map_cons, if_neg he, ih hbs htail]

theorem find?_upsert (key : α → κ) (a : α) (xs : List α) (k : κ) :
    (upsert key a xs).find? (fun b => decide (key b = k)) =
      if key a = k then some a else xs.find? (fun b => decide (key b = k)) := by
  induction xs with
  | nil => by_cases h : key a = k <;> simp [upsert, h]
  | cons b bs ih =>
      by_cases he : key b = key a
      · by_cases h : key a = k <;> simp [upsert, he, h]
      · rw [upsert, if_neg he]
        by_cases hb : key b = k
        · have ha : key a ≠ k := fun ha => he (hb.trans ha.symm)
          simp [hb, ha]
        · simp [hb, ih]

theorem mem_upsert {key : α → κ} {xs : List α} (h : (xs.map key).Nodup) (a b : α) :
    b ∈ upsert key a xs ↔ b = a ∨ b ∈ xs ∧ key b ≠ key a := by
  induction xs with
  | nil => simp [upsert]
  | cons c cs ih =>
      obtain ⟨hc, hcs⟩ := List.nodup_cons.mp h
      by_cases he : key c = key a
      · have hrest : ∀ d ∈ cs, key d ≠ key a := by
          intro d hd hk
          exact hc (List.mem_map.mpr ⟨d, hd, hk.trans he.symm⟩)
        rw [upsert, if_pos he, List.mem_cons, List.mem_cons]
        constructor
        · rintro (hb | hb)
          · exact .inl hb
          · exact .inr ⟨.inr hb, hrest b hb⟩
        · rintro (hb | ⟨rfl | hb, hk⟩)
          · exact .inl hb
          · exact absurd he hk
          · exact .inr hb
      · rw [upsert, if_neg he, List.mem_cons, ih hcs, List.mem_cons]
        constructor
        · rintro (rfl | hb | ⟨hb, hk⟩)
          · exact .inr ⟨.inl rfl, he⟩
          · exact .inl hb
          · exact .inr ⟨.inr hb, hk⟩
        · rintro (hb | ⟨rfl | hb, hk⟩)
          · exact .inr (.inl hb)
          · exact .inl rfl
          · exact .inr (.inr ⟨hb, hk⟩)

namespace VersionedTable

variable {key : α → κ}

def empty (key : α → κ) : VersionedTable key := ⟨[], List.nodup_nil, [], fun _ => rfl⟩

def find? (t : VersionedTable key) (k : κ) : Option α := t.rows.find? (fun a => decide (key a = k))

def put (t : VersionedTable key) (a : α) : VersionedTable key where
  rows := upsert key a t.rows
  nodup := nodup_upsert t.nodup a
  stored := t.stored ++ [a]
  current := by
    intro k
    rw [versions_append, find?_upsert]
    by_cases h : key a = k
    · subst h
      simp [versions_singleton_self]
    · rw [versions_singleton_ne h, List.append_nil, if_neg h]
      exact t.current k

@[simp] theorem find?_empty (k : κ) : (empty key).find? k = none := rfl

@[simp] theorem stored_empty : (empty key).stored = [] := rfl

theorem find?_put (t : VersionedTable key) (a : α) (k : κ) :
    (t.put a).find? k = if key a = k then some a else t.find? k :=
  find?_upsert key a t.rows k

@[simp] theorem find?_put_self (t : VersionedTable key) (a : α) :
    (t.put a).find? (key a) = some a := by
  simp [find?_put]

theorem find?_put_of_ne (t : VersionedTable key) {a : α} {k : κ} (h : key a ≠ k) :
    (t.put a).find? k = t.find? k := by
  simp [find?_put, h]

@[simp] theorem stored_put (t : VersionedTable key) (a : α) : (t.put a).stored = t.stored ++ [a] := rfl

theorem key_of_find? {t : VersionedTable key} {k : κ} {a : α} (h : t.find? k = some a) : key a = k := by
  simpa using List.find?_some h

theorem mem_of_find? {t : VersionedTable key} {k : κ} {a : α} (h : t.find? k = some a) : a ∈ t.rows :=
  List.mem_of_find?_eq_some h

theorem find?_of_mem {t : VersionedTable key} {a : α} (h : a ∈ t.rows) : t.find? (key a) = some a := by
  have hn := t.nodup
  unfold find?
  generalize t.rows = rows at h hn
  induction rows with
  | nil => cases h
  | cons b bs ih =>
      obtain ⟨hb, hbs⟩ := List.nodup_cons.mp hn
      rcases List.mem_cons.mp h with rfl | h
      · simp
      · have hne : key b ≠ key a := fun he => hb (List.mem_map.mpr ⟨a, h, he.symm⟩)
        simp [hne, ih h hbs]

theorem mem_rows_iff {t : VersionedTable key} {a : α} : a ∈ t.rows ↔ t.find? (key a) = some a :=
  ⟨find?_of_mem, mem_of_find?⟩

theorem mem_put (t : VersionedTable key) (a b : α) :
    b ∈ (t.put a).rows ↔ b = a ∨ b ∈ t.rows ∧ key b ≠ key a :=
  mem_upsert t.nodup a b

theorem mem_stored_of_find? {t : VersionedTable key} {k : κ} {a : α} (h : t.find? k = some a) :
    a ∈ t.stored := by
  have hl : (versions key k t.stored).getLast? = some a := (t.current k).trans h
  exact (mem_versions.mp (List.mem_of_getLast? hl)).1

/-- When each version may follow the row it replaces, the versions of every row form a chain. -/
theorem versions_put {R : α → α → Prop} {t : VersionedTable key} {a : α}
    (ht : ∀ k, (versions key k t.stored).IsChain R)
    (ha : ∀ b, t.find? (key a) = some b → R b a) (k : κ) :
    (versions key k (t.put a).stored).IsChain R := by
  rw [stored_put, versions_append]
  by_cases h : key a = k
  · subst h
    rw [versions_singleton_self, List.isChain_append]
    refine ⟨ht _, by simp, ?_⟩
    intro b hb c hc
    cases hc
    exact ha b ((t.current _).symm.trans hb)
  · rw [versions_singleton_ne h, List.append_nil]
    exact ht k

/-- When a new row may begin and each version may follow the row it replaces,
the versions of every row form a walk. -/
theorem walk_put {R : α → α → Prop} {start : α → Prop} {t : VersionedTable key} {a : α}
    (ht : ∀ k, Walk R start (versions key k t.stored)) (hnew : t.find? (key a) = none → start a)
    (hstep : ∀ b, t.find? (key a) = some b → R b a) (k : κ) :
    Walk R start (versions key k (t.put a).stored) := by
  rw [stored_put, versions_append]
  by_cases h : key a = k
  · subst h
    rw [versions_singleton_self]
    have hlast : (versions key (key a) t.stored).getLast? = t.find? (key a) := t.current (key a)
    refine (ht (key a)).snoc (fun hnil => hnew ?_) (fun b hb => hstep b ?_)
    · rw [← hlast, hnil, List.getLast?_nil]
    · rw [← hlast]
      exact hb
  · rw [versions_singleton_ne h, List.append_nil]
    exact ht k

end VersionedTable

end Aetheris.Lib
