import Mathlib.Data.List.Basic

namespace Aetheris.Lib.Separated

variable {α : Type} {c : α} {a b x y s s' k k' : List α}

/-- What stands before the first separator is read off a joined text. -/
theorem first_eq_iff (ha : c ∉ a) (hb : c ∉ b) : a ++ c :: x = b ++ c :: y ↔ a = b ∧ x = y := by
  induction a generalizing b with
  | nil =>
      cases b with
      | nil => simp
      | cons d b =>
          have hd : d ≠ c := fun h => hb (h ▸ List.mem_cons_self)
          simp [hd.symm]
  | cons d a ih =>
      have hd : d ≠ c := fun h => ha (h ▸ List.mem_cons_self)
      cases b with
      | nil => simp [hd]
      | cons e b =>
          have hb' := ih (fun h => ha (List.mem_cons_of_mem d h)) (fun h => hb (List.mem_cons_of_mem e h))
          simp [hb', and_assoc]

/-- A free head `s`, a marker and a free key, joined. -/
def joined (c : α) (s marker k : List α) : List α := s ++ c :: (marker ++ c :: k)

/-- The head `s'` goes on where `s` stopped: it takes in the separator, the
marker `a` and a `tail` that the key `k` begins with. -/
def Absorbs (c : α) (s a k s' b k' : List α) : Prop :=
  ∃ tail, s' = s ++ c :: (a ++ tail) ∧ c :: k = tail ++ c :: (b ++ c :: k')

theorem Absorbs.joined_eq (h : Absorbs c s a k s' b k') : joined c s a k = joined c s' b k' := by
  obtain ⟨tail, hs, hk⟩ := h
  rw [joined, joined, hs, hk]
  simp [List.append_assoc]

theorem Absorbs.ne (h : Absorbs c s a k s' b k') : s ≠ s' := by
  obtain ⟨tail, hs, -⟩ := h
  intro hsame
  have hlength := congrArg List.length (hsame.trans hs)
  rw [hsame, List.length_append, List.length_cons] at hlength
  omega

/-- One head is a proper beginning of the other. -/
theorem absorbs_of_begins (ha : c ∉ a) {d : α} {rest : List α} (hs : s' = s ++ d :: rest)
    (h : joined c s a k = joined c s' b k') : Absorbs c s a k s' b k' := by
  rw [joined, joined, hs, List.append_assoc, List.append_cancel_left_eq, List.cons_append, List.cons.injEq] at h
  obtain ⟨rfl, htail⟩ := h
  obtain ⟨m, hrest, hk⟩ | ⟨m, ham, hm⟩ := List.append_eq_append_iff.mp htail
  · exact ⟨m, hs.trans (by rw [hrest]), hk⟩
  · -- the head stops inside the marker, which holds no separator
    cases m with
    | nil =>
        rw [List.append_nil] at ham
        refine ⟨[], by rw [hs, ham, List.append_nil], ?_⟩
        simpa using hm.symm
    | cons e m =>
        obtain ⟨rfl, -⟩ := List.cons.inj hm
        exact absurd (ham ▸ List.mem_append_right rest List.mem_cons_self) ha

/-- Two joined texts are the same only of the same parts, or where one head
absorbs the other's marker. -/
theorem joined_eq_iff (ha : c ∉ a) (hb : c ∉ b) :
    joined c s a k = joined c s' b k' ↔
      s = s' ∧ a = b ∧ k = k' ∨ Absorbs c s a k s' b k' ∨ Absorbs c s' b k' s a k := by
  constructor
  · intro h
    obtain ⟨m, hs, hm⟩ | ⟨m, hs, hm⟩ := List.append_eq_append_iff.mp h
    · cases m with
      | nil =>
          rw [List.append_nil] at hs
          have hparts : a ++ c :: k = b ++ c :: k' := by simpa using hm
          exact .inl ⟨hs.symm, (first_eq_iff ha hb).mp hparts⟩
      | cons d rest => exact .inr (.inl (absorbs_of_begins ha hs h))
    · cases m with
      | nil =>
          rw [List.append_nil] at hs
          have hparts : a ++ c :: k = b ++ c :: k' := by simpa using hm.symm
          exact .inl ⟨hs, (first_eq_iff ha hb).mp hparts⟩
      | cons d rest => exact .inr (.inr (absorbs_of_begins hb hs h.symm))
  · rintro (⟨rfl, rfl, rfl⟩ | h | h)
    · rfl
    · exact h.joined_eq
    · exact h.joined_eq.symm

end Aetheris.Lib.Separated
