import LinkTest.Proofs.Datum.Fields
import LinkTest.Proofs.Stamp.Calendar

/-!
# Moments are read back from their texts

The text of a moment is read part by part: each part ends where something begins that is no digit.
What is read is always a moment that exists, and every such moment is read back from its text.
-/

namespace LinkTest

theorem Text.trimStart_digits {ds : List Char} (h : IsDigits ds) (r : List Char) :
    trimStart (ds ++ r) = ds ++ r := by
  cases ds with
  | nil => exact absurd rfl h.1
  | cons d ds => exact trimStart_cons (isBlank_of_isDigit (h.2 d List.mem_cons_self)) _

namespace Timestamp

variable {c : Char} {r : List Char}

/-! ## Parts -/

theorem digitsUpTo_append {width : Nat} {ds : List Char} (h : Text.IsDigits ds)
    (hw : ds.length ≤ width) (hc : c.isDigit = false) :
    digitsUpTo width (ds ++ c :: r) = .ok (ds, c :: r) := by
  have hrest : ((c :: r).take (width - ds.length)).takeWhile Char.isDigit = [] := by
    cases width - ds.length <;> simp [hc]
  have htake : ((ds ++ c :: r).take width).takeWhile Char.isDigit = ds := by
    rw [List.take_append, List.take_of_length_le hw, List.takeWhile_append_of_pos h.2, hrest,
      List.append_nil]
  unfold digitsUpTo
  split
  · next h => simp at h
  · dsimp only
    rw [htake, if_neg (by simpa using h.1), List.drop_left]

theorem component_padded {low high n : Nat} (h : low ≤ n ∧ n ≤ high) (hn : n < 100)
    (hc : c.isDigit = false) :
    component low high (Text.padded 2 n ++ c :: r) = .ok (n, c :: r) := by
  have hd := Text.isDigits_padded 2 n
  refine bind_eq_ok.2 ⟨(Text.padded 2 n, c :: r), ?_, ?_⟩
  · rw [Text.trimStart_digits hd]
    exact digitsUpTo_append hd (Nat.le_of_eq (Text.length_padded (by decide) hn)) hc
  · dsimp only
    rw [Text.numberIn_padded, if_pos h]

theorem mark_cons (hc : Text.isBlank c = false) : mark c (c :: r) = .ok ((), r) := by
  rw [mark, Text.trimStart_cons hc]
  exact if_pos rfl

/-- Behind a sign there may be any number of digits. -/
theorem year_signed {n : Nat} (hn : n < Nat.pow 2 31) (negative : Bool) (hc : c.isDigit = false) :
    year ((if negative then '-' else '+') :: (Text.padded 4 n ++ c :: r)) =
      .ok (if negative then -(n : Int) else n, c :: r) := by
  have hdigits : digitsUpTo (Text.padded 4 n ++ c :: r).length (Text.padded 4 n ++ c :: r) =
      .ok (Text.padded 4 n, c :: r) :=
    digitsUpTo_append (Text.isDigits_padded 4 n) (by simp) hc
  rw [year]
  cases negative with
  | true =>
    rw [if_pos rfl, Text.trimStart_cons (by decide), if_pos rfl]
    refine bind_eq_ok.2 ⟨_, hdigits, ?_⟩
    dsimp only
    rw [Text.numberIn_padded, if_pos rfl, if_pos (Nat.le_of_lt hn)]
  | false =>
    rw [if_neg nofun, Text.trimStart_cons (by decide), if_neg nofun]
    refine bind_eq_ok.2 ⟨_, hdigits, ?_⟩
    dsimp only
    rw [Text.numberIn_padded, if_neg nofun, if_pos hn]

theorem year_plain {n : Nat} (hn : n < 10000) (hc : c.isDigit = false) :
    year (Text.padded 4 n ++ c :: r) = .ok ((n : Int), c :: r) := by
  have hd := Text.isDigits_padded 4 n
  have hdigits := digitsUpTo_append (r := r) hd
    (Nat.le_of_eq (Text.length_padded (by decide) hn)) hc
  have hhead : ∀ x r', x.isDigit = false → Text.padded 4 n ++ c :: r ≠ x :: r' := by
    intro x r' hx h
    obtain ⟨d, ds, hp⟩ := List.exists_cons_of_ne_nil hd.1
    rw [hp, List.cons_append] at h
    have hdigit := hd.2 d (by rw [hp]; exact List.mem_cons_self)
    rw [(List.cons.inj h).1, hx] at hdigit
    cases hdigit
  rw [year, Text.trimStart_digits hd]
  split
  · next h => exact absurd h (hhead _ _ (by decide))
  · next h => exact absurd h (hhead _ _ (by decide))
  · refine bind_eq_ok.2 ⟨_, hdigits, ?_⟩
    dsimp only
    rw [Text.numberIn_padded]

theorem year_yearText {y : Int} (hy : y.natAbs < Nat.pow 2 31) (hc : c.isDigit = false) :
    year ((yearText y).toList ++ c :: r) = .ok (y, c :: r) := by
  unfold yearText
  split
  · next h =>
    change year ((String.ofList (Text.padded 4 y.toNat)).toList ++ c :: r) = _
    rw [String.toList_ofList, year_plain (by omega) hc, Int.toNat_of_nonneg h.1]
  · next h =>
    change year (((if y < 0 then "-" else "+") ++
      String.ofList (Text.padded 4 y.natAbs)).toList ++ c :: r) = _
    have hsigned := year_signed (r := r) hy (decide (y < 0)) hc
    rw [String.toList_append, String.toList_ofList]
    split
    · next hneg =>
      rw [decide_eq_true hneg, if_pos rfl, if_pos rfl, show -(y.natAbs : Int) = y by omega]
        at hsigned
      exact hsigned
    · next hneg =>
      rw [decide_eq_false hneg, if_neg nofun, if_neg nofun, show (y.natAbs : Int) = y by omega]
        at hsigned
      exact hsigned

theorem fractionText_append (t : Timestamp) : ∃ c r, t.fractionText.toList ++ ['Z'] = c :: r ∧
    c.isDigit = false ∧ nanoseconds (c :: r) = .ok (t.nano % 1000000000, ['Z']) := by
  have hpoint : ∀ width n, 0 < width → width ≤ 9 → n < 10 ^ width →
      n * 10 ^ (9 - width) = t.nano % 1000000000 →
      ∃ c r, ("." ++ String.ofList (Text.padded width n)).toList ++ ['Z'] = c :: r ∧
        c.isDigit = false ∧ nanoseconds (c :: r) = .ok (t.nano % 1000000000, ['Z']) := by
    intro width n hpos hw hn heq
    have hlen := Text.length_padded hpos hn
    refine ⟨'.', Text.padded width n ++ ['Z'], ?_, by decide, ?_⟩
    · simp [String.toList_append]
    · refine bind_eq_ok.2 ⟨_, digitsUpTo_append (Text.isDigits_padded width n)
        (by rw [hlen]; exact hw) (by decide), ?_⟩
      dsimp only
      rw [Text.numberIn_padded, hlen, Nat.pow_eq, heq]
      rfl
  unfold fractionText
  dsimp only
  split
  · next h => exact ⟨'Z', [], rfl, by decide, by rw [h]; rfl⟩
  split
  · exact hpoint 3 _ (by decide) (by decide) (by omega) (by omega)
  split
  · exact hpoint 6 _ (by decide) (by decide) (by omega) (by omega)
  · exact hpoint 9 _ (by decide) (by decide) (by omega) (by omega)

/-! ## Moments -/

/-- A moment that exists: its day can be represented, and only the last second of a minute is
longer than others. -/
structure Valid (t : Timestamp) : Prop where
  day : firstDay ≤ t.day ∧ t.day ≤ lastDay
  second : t.second < 86400
  nano : t.nano < 1000000000 ∨ (t.second % 60 = 59 ∧ t.nano < 2000000000)

/-- What is read from the text of a moment. -/
def readings (t : Timestamp) : Local :=
  ⟨dateOfDays t.day, t.second / 3600, t.second / 60 % 60, t.second % 60 + t.nano / 1000000000,
    t.nano % 1000000000, 0⟩

variable {t : Timestamp}

theorem Valid.year_lt (h : t.Valid) : (dateOfDays t.day).year.natAbs < Nat.pow 2 31 := by
  obtain ⟨p, hp, hdays⟩ := exists_parts t.day
  have hbounds : -100000000 ≤ firstDay ∧ lastDay ≤ 100000000 := by decide
  have hday := h.day
  have hyear := hp.year
  have hdayOfYear := hp.dayOfYear
  rw [← hdays] at hday ⊢
  rw [yearStart_succ] at hdayOfYear
  rw [dateOfDays_days hp]
  unfold Parts.days yearStart at *
  dsimp only [Parts.date]
  change _ < 2147483648
  split at hdayOfYear <;> split <;> omega

theorem toList_text (t : Timestamp) : t.text.toList =
    (yearText (dateOfDays t.day).year).toList ++ '-' :: (Text.padded 2 (dateOfDays t.day).month ++
      '-' :: (Text.padded 2 (dateOfDays t.day).day ++ 'T' :: (Text.padded 2 (t.second / 3600) ++
        ':' :: (Text.padded 2 (t.second / 60 % 60) ++
          ':' :: (Text.padded 2 (t.second % 60 + t.nano / 1000000000) ++
            (t.fractionText.toList ++ ['Z'])))))) := by
  change ((yearText (dateOfDays t.day).year ++ "-" ++
    String.ofList (Text.padded 2 (dateOfDays t.day).month) ++ "-" ++
    String.ofList (Text.padded 2 (dateOfDays t.day).day)) ++ "T" ++
    (String.ofList (Text.padded 2 (t.second / 3600)) ++ ":" ++
      String.ofList (Text.padded 2 (t.second / 60 % 60)) ++ ":" ++
      String.ofList (Text.padded 2 (t.second % 60 + t.nano / 1000000000))) ++
    t.fractionText ++ "Z").toList = _
  simp [String.toList_append]

theorem localTime_text (h : t.Valid) : localTime t.text.toList = .ok (t.readings, []) := by
  obtain ⟨hmonth, hday⟩ := exists_dateOfDays t.day
  obtain ⟨c, r, hfraction, hc, hnano⟩ := fractionText_append t
  have hsecond := h.second
  have hnano' := h.nano
  have hlong : daysInMonth (dateOfDays t.day).year (dateOfDays t.day).month ≤ 31 := by
    unfold daysInMonth
    split
    · split <;> omega
    · split <;> omega
  rw [toList_text, hfraction]
  refine bind_eq_ok.2 ⟨_, year_yearText h.year_lt (by decide), ?_⟩
  refine bind_eq_ok.2 ⟨_, mark_cons (by decide), ?_⟩
  refine bind_eq_ok.2 ⟨_, component_padded hmonth (by omega) (by decide), ?_⟩
  refine bind_eq_ok.2 ⟨_, mark_cons (by decide), ?_⟩
  refine bind_eq_ok.2 ⟨_, component_padded (by omega) (by omega) (by decide), ?_⟩
  refine bind_eq_ok.2 ⟨_, (rfl : dateEnd ('T' :: _) = _), ?_⟩
  refine bind_eq_ok.2 ⟨_, component_padded (by omega) (by omega) (by decide), ?_⟩
  refine bind_eq_ok.2 ⟨_, mark_cons (by decide), ?_⟩
  refine bind_eq_ok.2 ⟨_, component_padded (by omega) (by omega) (by decide), ?_⟩
  refine bind_eq_ok.2 ⟨_, mark_cons (by decide), ?_⟩
  refine bind_eq_ok.2 ⟨_, component_padded (by omega) (by omega) hc, ?_⟩
  refine bind_eq_ok.2 ⟨_, hnano, ?_⟩
  rfl

theorem moment_readings (h : t.Valid) : t.readings.moment = .ok t := by
  obtain ⟨-, -, hday⟩ := exists_dateOfDays t.day
  have hsecond := h.second
  have hnano := h.nano
  have hrange : ¬ (t.day < firstDay ∨ lastDay < t.day) :=
    not_or.2 ⟨Int.not_lt.2 h.day.1, Int.not_lt.2 h.day.2⟩
  -- A second 60 is a second 59 that is longer.
  have hclock : (t.second / 3600 * 3600 + t.second / 60 % 60 * 60 +
      if t.second % 60 + t.nano / 1000000000 = 60 then 59
      else t.second % 60 + t.nano / 1000000000) = t.second := by
    split <;> omega
  have hlength : (if t.second % 60 + t.nano / 1000000000 = 60 then 1000000000 else 0) +
      t.nano % 1000000000 = t.nano := by
    split <;> omega
  unfold Local.moment readings
  dsimp only
  rw [toDays_dateOfDays, if_neg (Nat.not_lt.2 hday), if_neg hrange, if_neg (by decide), hclock,
    hlength]
  have hzero : ((t.second : Int) - 0 * 60) / 86400 = 0 := by omega
  have hmod : (((t.second : Int) - 0 * 60) % 86400).toNat = t.second := by omega
  rw [hzero, hmod, Int.add_zero, if_neg hrange]

/-- A moment that exists is read back from its text. -/
theorem Valid.ofText_text (h : t.Valid) : ofText t.text = .ok t :=
  bind_eq_ok.2 ⟨_, localTime_text h, moment_readings h⟩

theorem nanoseconds_lt {cs r : List Char} {n : Nat} (h : nanoseconds cs = .ok (n, r)) :
    n < 1000000000 := by
  unfold nanoseconds at h
  split at h
  · obtain ⟨⟨ds, r'⟩, hds, h⟩ := bind_eq_ok.1 h
    obtain rfl : Text.numberIn 10 ds * 10 ^ (9 - ds.length) = n := (Prod.mk.inj (Except.ok.inj h)).1
    have hlen : ds.length ≤ 9 := by
      unfold digitsUpTo at hds
      split at hds
      · cases hds
      · dsimp only at hds
        split at hds
        · cases hds
        · obtain rfl := (Prod.mk.inj (Except.ok.inj hds)).1
          exact Nat.le_trans (List.takeWhile_prefix _).length_le (List.length_take_le _ _)
    calc Text.numberIn 10 ds * 10 ^ (9 - ds.length)
        < 10 ^ ds.length * 10 ^ (9 - ds.length) :=
          Nat.mul_lt_mul_of_pos_right (Text.numberIn_lt (by decide) ds) (Nat.pow_pos (by decide))
      _ = 1000000000 := by rw [← Nat.pow_add, Nat.add_sub_cancel' hlen]
  · obtain rfl := (Prod.mk.inj (Except.ok.inj h)).1
    decide

theorem nano_lt_of_localTime {cs r : List Char} {l : Local} (h : localTime cs = .ok (l, r)) :
    l.nano < 1000000000 := by
  -- What stands before the fraction.
  iterate 11 obtain ⟨_, -, h⟩ := bind_eq_ok.1 h
  obtain ⟨⟨n, _⟩, hn, h⟩ := bind_eq_ok.1 h
  obtain ⟨_, -, h⟩ := bind_eq_ok.1 h
  obtain rfl := (Prod.mk.inj (Except.ok.inj h)).1
  exact nanoseconds_lt hn

theorem valid_of_moment {l : Local} (hl : l.nano < 1000000000) (h : l.moment = .ok t) :
    t.Valid := by
  have hend : ∀ (day : Int) (second nano : Nat),
      nano < 1000000000 ∨ (second % 60 = 59 ∧ nano < 2000000000) →
      (if day < firstDay ∨ lastDay < day then Except.error Flaw.impossible
        else .ok ⟨day, (((second : Int) - l.offset * 60) % 86400).toNat, nano⟩) = .ok t →
      t.Valid := by
    intro day second nano hn h
    split at h
    · cases h
    · next hrange =>
      obtain rfl := Except.ok.inj h
      obtain ⟨hfirst, hlast⟩ := not_or.1 hrange
      refine ⟨⟨Int.not_lt.1 hfirst, Int.not_lt.1 hlast⟩, by dsimp only; omega, ?_⟩
      dsimp only
      omega
  unfold Local.moment at h
  dsimp only at h
  split at h
  · cases h
  split at h
  · cases h
  split at h
  · cases h
  by_cases hleap : l.second = 60
  · rw [if_pos hleap, if_pos hleap] at h
    exact hend _ _ _ (.inr (by omega)) h
  · rw [if_neg hleap, if_neg hleap] at h
    exact hend _ _ _ (.inl (by omega)) h

/-- What is read exists. -/
theorem valid_of_ofText {s : String} (h : ofText s = .ok t) : t.Valid := by
  obtain ⟨⟨l, r⟩, hl, h⟩ := bind_eq_ok.1 h
  dsimp only at h
  split at h
  · exact valid_of_moment (nano_lt_of_localTime hl) h
  · cases h

end Timestamp
end LinkTest
