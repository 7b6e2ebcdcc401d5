/-!
# Texts cut at a mark

The pieces of a text between the places where a mark stands. Pieces that do not hold the mark and
are joined by it come apart again.
-/

namespace LinkTest.Text

/-- The pieces between the marks; two marks in a row have an empty piece between them. -/
def pieces (mark : Char) : List Char → List (List Char)
  | [] => [[]]
  | c :: r =>
    if c = mark then [] :: pieces mark r
    else
      match pieces mark r with
      | [] => [[c]]
      | p :: ps => (c :: p) :: ps

variable {mark : Char} {p : List Char}

theorem pieces_of_not_mem (h : mark ∉ p) : pieces mark p = [p] := by
  induction p with
  | nil => rfl
  | cons c p ih =>
    obtain ⟨hc, hp⟩ := not_or.1 (mt List.mem_cons.2 h)
    rw [pieces, if_neg (Ne.symm hc), ih hp]

theorem pieces_append (h : mark ∉ p) (r : List Char) :
    pieces mark (p ++ mark :: r) = p :: pieces mark r := by
  induction p with
  | nil => rw [List.nil_append, pieces, if_pos rfl]
  | cons c p ih =>
    obtain ⟨hc, hp⟩ := not_or.1 (mt List.mem_cons.2 h)
    rw [List.cons_append, pieces, if_neg (Ne.symm hc), ih hp]

/-- Pieces that are joined by a mark which none of them holds come apart again. -/
theorem pieces_intercalate {ps : List (List Char)} (hne : ps ≠ []) (h : ∀ p ∈ ps, mark ∉ p) :
    pieces mark ([mark].intercalate ps) = ps := by
  induction ps with
  | nil => exact absurd rfl hne
  | cons p ps ih =>
    have hp := h p List.mem_cons_self
    cases ps with
    | nil => rw [List.intercalate_singleton, pieces_of_not_mem hp]
    | cons q qs =>
      rw [List.intercalate_cons_cons, List.append_assoc, List.singleton_append, pieces_append hp,
        ih (List.cons_ne_nil _ _) fun p hm => h p (List.mem_cons_of_mem _ hm)]

theorem filter_intercalate {ps : List (List Char)} (h : ∀ p ∈ ps, mark ∉ p) :
    ([mark].intercalate ps).filter (· ≠ mark) = ps.flatten := by
  induction ps with
  | nil => rfl
  | cons p ps ih =>
    have hp : p.filter (· ≠ mark) = p :=
      List.filter_eq_self.2 fun c hc => decide_eq_true fun he => h p List.mem_cons_self (he ▸ hc)
    have hps := ih fun p hm => h p (List.mem_cons_of_mem _ hm)
    cases ps with
    | nil => rw [List.intercalate_singleton, hp]; simp
    | cons q qs =>
      rw [List.intercalate_cons_cons, List.filter_append, List.filter_append, hp, hps,
        List.flatten_cons]
      simp

theorem mem_intercalate {ps : List (List Char)} {c : Char} (h : c ∈ [mark].intercalate ps) :
    c = mark ∨ ∃ p ∈ ps, c ∈ p := by
  by_cases hc : c = mark
  · exact .inl hc
  · right
    induction ps with
    | nil => simp at h
    | cons p ps ih =>
      cases ps with
      | nil => exact ⟨p, List.mem_cons_self, by simpa using h⟩
      | cons q qs =>
        rw [List.intercalate_cons_cons] at h
        rcases List.mem_append.1 h with h | h
        · rcases List.mem_append.1 h with h | h
          · exact ⟨p, List.mem_cons_self, h⟩
          · exact absurd (List.mem_singleton.1 h) hc
        · obtain ⟨p', hp', hm⟩ := ih h
          exact ⟨p', List.mem_cons_of_mem _ hp', hm⟩

end LinkTest.Text
