import LinkTest.Proofs.Json.Cut
import LinkTest.Proofs.Json.Layout
import LinkTest.Proofs.Json.Tokens

/-!
# Blanks in JSON text

Texts that have the same marks, words and quoted texts in the same order are read alike, whatever
blanks stand between these: who gets to the end of the one gets to the end of the other and has
read the same.
-/

namespace LinkTest.Json

/-- The same tokens, with any blanks between them. Two words need some. -/
inductive Alike : List Char → List Char → Prop
  | nil : Alike [] []
  | first {c : Char} {r r' : List Char} (hc : isBlank c = true) (h : Alike r r') : Alike (c :: r) r'
  | second {c : Char} {r r' : List Char} (hc : isBlank c = true) (h : Alike r r') :
    Alike r (c :: r')
  | mark {c : Char} {r r' : List Char} (hc : isMark c = true) (h : Alike r r') :
    Alike (c :: r) (c :: r')
  | quoted {l r r' : List Char} (hl : Between l) (h : Alike r r') :
    Alike ('"' :: (l ++ '"' :: r)) ('"' :: (l ++ '"' :: r'))
  | word {w r r' : List Char} (hw : w.all inWord = true) (hr : Stops r) (hr' : Stops r')
    (h : Alike r r') : Alike (w ++ r) (w ++ r')

/-- How texts that are alike begin, once blanks have been skipped. -/
inductive Front : List Char → List Char → Prop
  | nil : Front [] []
  | mark {c : Char} {r r' : List Char} (hc : isMark c = true) (h : Alike r r') :
    Front (c :: r) (c :: r')
  | quoted {l r r' : List Char} (hl : Between l) (h : Alike r r') :
    Front ('"' :: (l ++ '"' :: r)) ('"' :: (l ++ '"' :: r'))
  | word {c : Char} {w r r' : List Char} (hw : (c :: w).all inWord = true) (hr : Stops r)
    (hr' : Stops r') (h : Alike r r') : Front (c :: (w ++ r)) (c :: (w ++ r'))

variable {cs cs' r r' : List Char} {c : Char}

theorem Front.alike (h : Front cs cs') : Alike cs cs' := by
  cases h with
  | nil => exact .nil
  | mark hc h => exact .mark hc h
  | quoted hl h => exact .quoted hl h
  | word hw hr hr' h => exact .word hw hr hr' h

theorem skipBlanks_blank (hc : isBlank c = true) (r : List Char) :
    skipBlanks (c :: r) = skipBlanks r := by
  rw [skipBlanks, List.dropWhile_cons, if_pos hc, skipBlanks]

theorem isBlank_of_isMark (hc : isMark c = true) : isBlank c = false := by
  simp only [isMark, Bool.or_eq_true, beq_iff_eq] at hc
  rcases hc with ((((rfl | rfl) | rfl) | rfl) | rfl) | rfl <;> rfl

theorem isBlank_of_inWord (hc : inWord c = true) : isBlank c = false := by
  simp only [inWord, Bool.and_eq_true, Bool.not_eq_true'] at hc
  exact hc.1.1

theorem inWord_of_isMark (hc : isMark c = true) : inWord c = false := by
  simp [inWord, hc]

theorem Alike.front (h : Alike cs cs') : Front (skipBlanks cs) (skipBlanks cs') := by
  induction h with
  | nil => exact .nil
  | first hc _ ih => rwa [skipBlanks_blank hc]
  | second hc _ ih => rwa [skipBlanks_blank hc]
  | mark hc h _ =>
    have hblank := isBlank_of_isMark hc
    rw [skipBlanks_cons hblank, skipBlanks_cons hblank]
    exact .mark hc h
  | quoted hl h _ =>
    rw [skipBlanks_cons (by decide), skipBlanks_cons (by decide)]
    exact .quoted hl h
  | @word w r r' hw hr hr' h ih =>
    cases w with
    | nil => exact ih
    | cons c w =>
      have hblank : isBlank c = false := by
        rw [List.all_cons, Bool.and_eq_true] at hw
        exact isBlank_of_inWord hw.1
      rw [List.cons_append, List.cons_append, skipBlanks_cons hblank, skipBlanks_cons hblank]
      exact .word hw hr hr' h

/-- The first characters are the same, and behind a mark the texts go on alike. -/
theorem Front.exists_cons (h : Front (c :: r) cs') :
    ∃ r', cs' = c :: r' ∧ (isMark c = true → Alike r r') := by
  cases h with
  | mark hc h => exact ⟨_, rfl, fun _ => h⟩
  | quoted hl h => exact ⟨_, rfl, fun hquote => by cases hquote⟩
  | word hw hr hr' h =>
    rw [List.all_cons, Bool.and_eq_true] at hw
    exact ⟨_, rfl, fun hc => by rw [inWord_of_isMark hc] at hw; cases hw.1⟩

theorem length_skipBlanks (cs : List Char) : (skipBlanks cs).length ≤ cs.length :=
  (List.dropWhile_suffix _).length_le

/-- What is left of the one text goes on like what is left of the other, which has got shorter. -/
structure Onward (left left' cs' : List Char) : Prop where
  alike : Alike left left'
  shorter : left'.length < cs'.length

/-! ## Values of one token -/

theorem text_between {l : List Char} (hl : Between l) :
    ∃ d, ∀ rest, text (l ++ '"' :: rest) = (d, some rest) := by
  obtain ⟨said, hsaid⟩ := textToken_between hl
  cases said with
  | ok s => exact ⟨.text s, fun rest => by rw [text, hsaid]⟩
  | error f => exact ⟨.damaged f none, fun rest => by rw [text, hsaid]⟩

theorem alike_suffix {w w' : List Char} (hw : w.all inWord = true) (hsuffix : w' <:+ w)
    (hr : Stops r) (hr' : Stops r') (h : Alike r r') : Alike (w' ++ r) (w' ++ r') :=
  .word (List.all_eq_true.2 fun c hc => List.all_eq_true.1 hw c (hsuffix.mem hc)) hr hr' h

variable {w left : List Char} {d d' : Datum}

theorem number_spaced (hw : w.all inWord = true) (hr : Stops r) (hr' : Stops r') (h : Alike r r')
    (hv : number (w ++ r) = (d, some left)) :
    ∃ left', number (w ++ r') = (d, some left') ∧ Onward left left' (w ++ r') := by
  obtain ⟨w', hsuffix, hlen, rfl, hrest⟩ := number_within hr hv
  refine ⟨w' ++ r', hrest r' hr', alike_suffix hw hsuffix hr hr' h, ?_⟩
  simp only [List.length_append]
  omega

theorem word_spaced {es : List Char} (hes : es.all inWord = true) (hw : w.all inWord = true)
    (hr : Stops r) (hr' : Stops r') (h : Alike r r')
    (hv : word d es (w ++ r) = (d', some left)) :
    ∃ left', word d es (w ++ r') = (d', some left') ∧ Onward left left' (c :: (w ++ r')) := by
  obtain ⟨w', hsuffix, rfl, hrest⟩ := word_within hes hr hv
  refine ⟨w' ++ r', hrest r', alike_suffix hw hsuffix hr hr' h, ?_⟩
  have := hsuffix.length_le
  simp only [List.length_append, List.length_cons]
  omega

/-! ## Whole texts -/

/-- What is read to its end with so much fuel is read from any text that is alike, if the fuel is
enough there. -/
structure SpacedAt (fuel : Nat) : Prop where
  value : ∀ {cs cs' fuel' d left}, value fuel cs = (d, some left) → Alike cs cs' →
    4 * cs'.length < fuel' → ∃ left', value fuel' cs' = (d, some left') ∧ Onward left left' cs'
  items : ∀ {first cs cs' fuel' ds e left}, items fuel first cs = (ds, e, some left) →
    Alike cs cs' → 4 * cs'.length + 2 < fuel' →
    ∃ left', items fuel' first cs' = (ds, e, some left') ∧ Onward left left' cs'
  itemThen : ∀ {cs cs' fuel' ds e left}, itemThen fuel cs = (ds, e, some left) → Alike cs cs' →
    4 * cs'.length + 1 < fuel' →
    ∃ left', itemThen fuel' cs' = (ds, e, some left') ∧ Onward left left' cs'
  members : ∀ {first cs cs' fuel' ms e left}, members fuel first cs = (ms, e, some left) →
    Alike cs cs' → 4 * cs'.length + 2 < fuel' →
    ∃ left', members fuel' first cs' = (ms, e, some left') ∧ Onward left left' cs'
  memberThen : ∀ {cs cs' fuel' ms e left}, memberThen fuel cs = (ms, e, some left) →
    Front ('"' :: cs) ('"' :: cs') → 4 * cs'.length + 1 < fuel' →
    ∃ left', memberThen fuel' cs' = (ms, e, some left') ∧ Onward left left' cs'

theorem spacedAt_zero : SpacedAt 0 where
  value h := nomatch h
  items h := nomatch h
  itemThen h := nomatch h
  members h := nomatch h
  memberThen h := nomatch h

variable {fuel fuel' : Nat}

theorem value_list (fuel : Nat) (r : List Char) : value (fuel + 1) ('[' :: r) =
    (.list (items fuel true r).1 (items fuel true r).2.1, (items fuel true r).2.2) := rfl

theorem value_dict (fuel : Nat) (r : List Char) : value (fuel + 1) ('\x7b' :: r) =
    (.dict (members fuel true r).1 (members fuel true r).2.1, (members fuel true r).2.2) := rfl

theorem value_text (fuel : Nat) (r : List Char) : value (fuel + 1) ('"' :: r) = text r := rfl

/-- A number or a word, by its first character. -/
theorem value_word (hc : inWord c = true) (fuel : Nat) (r : List Char) :
    value (fuel + 1) (c :: r) =
      if c = '-' ∨ c.isDigit then number (c :: r)
      else if c = 'n' then word .null "ull".toList r
      else if c = 't' then word (.boolean true) "rue".toList r
      else if c = 'f' then word (.boolean false) "alse".toList r
      else (.damaged .noValue (some .noValue), none) := by
  have hother : ∀ x, inWord x = false → c ≠ x := by
    rintro x hx rfl
    rw [hc] at hx
    cases hx
  rw [value, skipBlanks_cons (isBlank_of_inWord hc)]
  dsimp only
  rw [if_neg (hother '[' (by decide)), if_neg (hother '\x7b' (by decide)),
    if_neg (hother '"' (by decide))]

/-- A value that begins with a mark is a list or a dictionary. -/
theorem value_of_mark (h : SpacedAt fuel) (hc : isMark c = true) (ha : Alike r r')
    (hv : value (fuel + 1) (c :: r) = (d, some left)) (hf : 4 * r'.length + 2 < fuel') :
    ∃ left', value (fuel' + 1) (c :: r') = (d, some left') ∧ Onward left left' (c :: r') := by
  simp only [isMark, Bool.or_eq_true, beq_iff_eq] at hc
  rcases hc with ((((rfl | rfl) | rfl) | rfl) | rfl) | rfl
  · cases hitems : items fuel true r with
    | mk ds rest =>
      obtain ⟨e, rest⟩ := rest
      rw [value_list, hitems] at hv
      obtain ⟨rfl, rfl⟩ := Prod.mk.inj hv
      obtain ⟨left', hitems', hon⟩ := h.items hitems ha hf
      refine ⟨left', ?_, hon.alike, Nat.lt_succ_of_lt hon.shorter⟩
      rw [value_list, hitems']
  · cases hv
  · cases hmembers : members fuel true r with
    | mk ms rest =>
      obtain ⟨e, rest⟩ := rest
      rw [value_dict, hmembers] at hv
      obtain ⟨rfl, rfl⟩ := Prod.mk.inj hv
      obtain ⟨left', hmembers', hon⟩ := h.members hmembers ha hf
      refine ⟨left', ?_, hon.alike, Nat.lt_succ_of_lt hon.shorter⟩
      rw [value_dict, hmembers']
  · cases hv
  · cases hv
  · cases hv

/-- One that begins otherwise is a number or one of the three words. -/
theorem value_of_word (hw : (c :: w).all inWord = true) (hr : Stops r) (hr' : Stops r')
    (ha : Alike r r') (hv : value (fuel + 1) (c :: (w ++ r)) = (d, some left)) (fuel' : Nat) :
    ∃ left', value (fuel' + 1) (c :: (w ++ r')) = (d, some left') ∧
      Onward left left' (c :: (w ++ r')) := by
  obtain ⟨hc, hw'⟩ : inWord c = true ∧ w.all inWord = true := by simpa using hw
  rw [value_word hc] at hv ⊢
  split at hv
  · next hnumber =>
    rw [if_pos hnumber]
    exact number_spaced hw hr hr' ha hv
  next hnumber =>
  rw [if_neg hnumber]
  split at hv
  · next hn =>
    rw [if_pos hn]
    exact word_spaced (by decide) hw' hr hr' ha hv
  next hn =>
  rw [if_neg hn]
  split at hv
  · next ht =>
    rw [if_pos ht]
    exact word_spaced (by decide) hw' hr hr' ha hv
  next ht =>
  rw [if_neg ht]
  split at hv
  · next hfalse =>
    rw [if_pos hfalse]
    exact word_spaced (by decide) hw' hr hr' ha hv
  · cases hv

/-- A value in front: a list, a dictionary or one token. -/
theorem value_of_front (h : SpacedAt fuel) (hfront : Front cs cs')
    (hv : value (fuel + 1) cs = (d, some left)) (hf : 4 * cs'.length < fuel' + 1) :
    ∃ left', value (fuel' + 1) cs' = (d, some left') ∧ Onward left left' cs' := by
  cases hfront with
  | nil => cases hv
  | mark hc ha =>
    rw [List.length_cons] at hf
    exact value_of_mark h hc ha hv (by omega)
  | @quoted l r r' hl ha =>
    obtain ⟨t, ht⟩ := text_between hl
    rw [value_text, ht] at hv
    obtain ⟨rfl, heq⟩ := Prod.mk.inj hv
    obtain rfl := Option.some.inj heq
    refine ⟨r', by rw [value_text, ht], ha, ?_⟩
    simp only [List.length_cons, List.length_append]
    omega
  | word hw hr hr' ha => exact value_of_word hw hr hr' ha hv fuel'

theorem length_of_skipBlanks (h : skipBlanks cs = c :: r) : r.length < cs.length := by
  have := length_skipBlanks cs
  rw [h, List.length_cons] at this
  omega

/-- What is closed by a mark is closed there in any text that is alike. -/
theorem Alike.closed (ha : Alike cs cs') (hmark : isMark c = true) (h : skipBlanks cs = c :: r) :
    ∃ r', skipBlanks cs' = c :: r' ∧ Onward r r' cs' := by
  have hfront := ha.front
  rw [h] at hfront
  obtain ⟨r', hcs', hr⟩ := hfront.exists_cons
  exact ⟨r', hcs', hr hmark, length_of_skipBlanks hcs'⟩

/-- And where it leads on to an entry, so does the other. -/
theorem Leads.alike {close : Char} {first : Bool} {next : List Char}
    (h : Leads close first cs next) (ha : Alike cs cs') :
    ∃ next', Leads close first cs' next' ∧ Front next next' ∧ next'.length ≤ cs'.length := by
  have hfront := ha.front
  cases h with
  | first h hc =>
    rw [h] at hfront
    obtain ⟨r', hcs', -⟩ := hfront.exists_cons
    refine ⟨_, .first hcs' hc, hcs' ▸ hfront, ?_⟩
    rw [← hcs']
    exact length_skipBlanks cs'
  | further h h' hc =>
    rw [h] at hfront
    obtain ⟨r', hcs', hr⟩ := hfront.exists_cons
    have hnext := (hr rfl).front
    rw [h'] at hnext
    obtain ⟨r₂', hr', -⟩ := hnext.exists_cons
    refine ⟨_, .further hcs' hr' hc, hr' ▸ hnext, ?_⟩
    have := length_of_skipBlanks hcs'
    have := length_of_skipBlanks hr'
    rw [List.length_cons]
    omega

theorem items_of_alike (h : SpacedAt fuel) {first : Bool} {ds : List Datum} {e : Ending}
    (hv : items (fuel + 1) first cs = (ds, e, some left)) (ha : Alike cs cs')
    (hf : 4 * cs'.length + 2 < fuel' + 1) :
    ∃ left', items (fuel' + 1) first cs' = (ds, e, some left') ∧ Onward left left' cs' := by
  rcases items_cases fuel first cs with ⟨f, g, hbroken⟩ | ⟨r, hclose⟩ | ⟨next, hnext⟩
  · rw [hbroken] at hv
    cases hv
  · rw [items_closed hclose] at hv
    obtain ⟨rfl, rfl, heq⟩ : [] = ds ∧ .strict = e ∧ some r = some left := by simpa using hv
    obtain rfl := Option.some.inj heq
    obtain ⟨r', hclose', hon⟩ := ha.closed rfl hclose
    exact ⟨r', items_closed hclose' fuel' first, hon⟩
  · obtain ⟨next', hnext', hfront, hlen⟩ := hnext.alike ha
    rw [items_of_leads hnext] at hv
    obtain ⟨left', hthen, hon⟩ := h.itemThen hv hfront.alike
      (show 4 * next'.length + 1 < fuel' by omega)
    refine ⟨left', ?_, hon.alike, Nat.lt_of_lt_of_le hon.shorter hlen⟩
    rw [items_of_leads hnext', hthen]

theorem itemThen_of_alike (h : SpacedAt fuel) {ds : List Datum} {e : Ending}
    (hv : itemThen (fuel + 1) cs = (ds, e, some left)) (ha : Alike cs cs')
    (hf : 4 * cs'.length + 1 < fuel' + 1) :
    ∃ left', itemThen (fuel' + 1) cs' = (ds, e, some left') ∧ Onward left left' cs' := by
  rw [itemThen] at hv ⊢
  cases hvalue : value fuel cs with
  | mk d rest =>
    rw [hvalue] at hv
    cases rest with
    | none => cases hv
    | some r =>
      obtain ⟨r', hvalue', hon⟩ := h.value hvalue ha (show 4 * cs'.length < fuel' by omega)
      have hshort := hon.shorter
      rw [hvalue']
      dsimp only at hv ⊢
      cases hitems : items fuel false r with
      | mk ds' rest =>
        obtain ⟨e', rest⟩ := rest
        rw [hitems] at hv
        obtain ⟨rfl, rfl, rfl⟩ : d :: ds' = ds ∧ e' = e ∧ rest = some left := by simpa using hv
        obtain ⟨left', hitems', hon'⟩ := h.items hitems hon.alike
          (show 4 * r'.length + 2 < fuel' by omega)
        rw [hitems']
        exact ⟨left', rfl, hon'.alike, Nat.lt_trans hon'.shorter hshort⟩

theorem members_of_alike (h : SpacedAt fuel) {first : Bool} {ms : List (String × Datum)}
    {e : Ending} (hv : members (fuel + 1) first cs = (ms, e, some left)) (ha : Alike cs cs')
    (hf : 4 * cs'.length + 2 < fuel' + 1) :
    ∃ left', members (fuel' + 1) first cs' = (ms, e, some left') ∧ Onward left left' cs' := by
  rcases members_cases fuel first cs with ⟨f, g, hbroken⟩ | ⟨r, hclose⟩ | ⟨next, hnext⟩
  · rw [hbroken] at hv
    cases hv
  · rw [members_closed hclose] at hv
    obtain ⟨rfl, rfl, heq⟩ : [] = ms ∧ .strict = e ∧ some r = some left := by simpa using hv
    obtain rfl := Option.some.inj heq
    obtain ⟨r', hclose', hon⟩ := ha.closed rfl hclose
    exact ⟨r', members_closed hclose' fuel' first, hon⟩
  · obtain ⟨quoted, hnext', hfront, hlen⟩ := hnext.alike ha
    obtain ⟨next', rfl, -⟩ := hfront.exists_cons
    rw [List.length_cons] at hlen
    rw [members_of_leads hnext] at hv
    obtain ⟨left', hthen, hon⟩ := h.memberThen hv hfront
      (show 4 * next'.length + 1 < fuel' by omega)
    refine ⟨left', ?_, hon.alike, Nat.lt_of_lt_of_le hon.shorter (Nat.le_of_succ_le hlen)⟩
    rw [members_of_leads hnext', hthen]

theorem colonThen_of_alike (h : SpacedAt fuel) (hv : colonThen fuel cs = (d, some left))
    (ha : Alike cs cs') (hf : 4 * cs'.length < fuel' + 4) :
    ∃ left', colonThen fuel' cs' = (d, some left') ∧ Onward left left' cs' := by
  have hfront := ha.front
  rw [colonThen] at hv ⊢
  cases hcs : skipBlanks cs with
  | nil =>
    rw [hcs] at hv
    cases hv
  | cons c r =>
    rw [hcs] at hv hfront
    obtain ⟨r', hcs', hmark⟩ := hfront.exists_cons
    have hlen := length_of_skipBlanks hcs'
    rw [hcs']
    dsimp only at hv ⊢
    split at hv
    · next hcolon =>
      subst hcolon
      rw [if_pos rfl]
      obtain ⟨left', hvalue, hon⟩ := h.value hv (hmark rfl) (show 4 * r'.length < fuel' by omega)
      exact ⟨left', hvalue, hon.alike, Nat.lt_trans hon.shorter hlen⟩
    · cases hv

theorem memberThen_of_alike (h : SpacedAt fuel) {ms : List (String × Datum)} {e : Ending}
    (hv : memberThen (fuel + 1) cs = (ms, e, some left)) (ha : Front ('"' :: cs) ('"' :: cs'))
    (hf : 4 * cs'.length + 1 < fuel' + 1) :
    ∃ left', memberThen (fuel' + 1) cs' = (ms, e, some left') ∧ Onward left left' cs' := by
  cases ha with
  | mark hc _ => cases hc
  | word hw _ _ _ => cases hw
  | @quoted l r r' hl ha =>
    obtain ⟨said, hsaid⟩ := textToken_between hl
    rw [memberThen_of_key (hsaid r)] at hv
    rw [memberThen_of_key (hsaid r')]
    have hlen : r'.length < (l ++ '"' :: r').length := by
      simp only [List.length_append, List.length_cons]
      omega
    cases hcolon : colonThen fuel r with
    | mk d rest =>
      rw [hcolon] at hv
      cases rest with
      | none => cases hv
      | some r₂ =>
        obtain ⟨r₂', hcolon', hon⟩ := colonThen_of_alike h hcolon ha
          (show 4 * r'.length < fuel' + 4 by omega)
        have hshort := hon.shorter
        rw [hcolon']
        cases hmembers : members fuel false r₂ with
        | mk ms' rest =>
          obtain ⟨e', rest⟩ := rest
          rw [moreMembers, hmembers] at hv
          obtain ⟨hms, he, rfl⟩ : _ = ms ∧ _ = e ∧ rest = some left := by simpa using hv
          obtain ⟨left', hmembers', hon'⟩ := h.members hmembers hon.alike
            (show 4 * r₂'.length + 2 < fuel' by omega)
          rw [moreMembers, hmembers']
          exact ⟨left', by rw [← hms, ← he], hon'.alike,
            Nat.lt_trans hon'.shorter (Nat.lt_trans hshort hlen)⟩

theorem value_skipBlanks (fuel : Nat) (cs : List Char) :
    value fuel (skipBlanks cs) = value fuel cs := by
  have hblanks : Blanks (cs.takeWhile isBlank) := fun c hc => List.all_eq_true.1 List.all_takeWhile c hc
  calc value fuel (skipBlanks cs)
      = value fuel (cs.takeWhile isBlank ++ skipBlanks cs) := (value_blanks hblanks fuel _).symm
    _ = value fuel cs := by rw [skipBlanks, List.takeWhile_append_dropWhile]

theorem spacedAt_succ (h : SpacedAt fuel) : SpacedAt (fuel + 1) where
  value {cs cs' fuel' d left} hv ha hf := by
    obtain ⟨fuel', rfl⟩ := Nat.exists_eq_succ_of_ne_zero (Nat.ne_of_gt (Nat.zero_lt_of_lt hf))
    rw [← value_skipBlanks] at hv ⊢
    have hlen := length_skipBlanks cs'
    obtain ⟨left', hvalue, hon⟩ := value_of_front h ha.front hv
      (show 4 * (skipBlanks cs').length < fuel' + 1 by omega)
    exact ⟨left', hvalue, hon.alike, Nat.lt_of_lt_of_le hon.shorter hlen⟩
  items hv ha hf := by
    obtain ⟨fuel', rfl⟩ := Nat.exists_eq_succ_of_ne_zero (Nat.ne_of_gt (Nat.zero_lt_of_lt hf))
    exact items_of_alike h hv ha hf
  itemThen hv ha hf := by
    obtain ⟨fuel', rfl⟩ := Nat.exists_eq_succ_of_ne_zero (Nat.ne_of_gt (Nat.zero_lt_of_lt hf))
    exact itemThen_of_alike h hv ha hf
  members hv ha hf := by
    obtain ⟨fuel', rfl⟩ := Nat.exists_eq_succ_of_ne_zero (Nat.ne_of_gt (Nat.zero_lt_of_lt hf))
    exact members_of_alike h hv ha hf
  memberThen hv ha hf := by
    obtain ⟨fuel', rfl⟩ := Nat.exists_eq_succ_of_ne_zero (Nat.ne_of_gt (Nat.zero_lt_of_lt hf))
    exact memberThen_of_alike h hv ha hf

theorem spacedAt (fuel : Nat) : SpacedAt fuel := by
  induction fuel with
  | zero => exact spacedAt_zero
  | succ fuel ih => exact spacedAt_succ ih

/-! ## Documents -/

theorem Alike.skipBlanks_eq_nil (h : Alike cs cs') (hnil : skipBlanks cs = []) :
    skipBlanks cs' = [] := by
  have hfront := h.front
  rw [hnil] at hfront
  generalize skipBlanks cs' = b at hfront ⊢
  cases hfront with
  | nil => rfl

theorem read_of_value {s : String} (h : value (4 * s.toList.length + 4) s.toList = (d, some left)) :
    read s = ⟨d, !(skipBlanks left).isEmpty⟩ := by
  rw [read]
  dsimp only
  rw [h]

/-- A text that is read to its end is read the same with other blanks. -/
theorem read_of_alike {s s' : String} (ha : Alike s.toList s'.toList)
    (hcut : ¬Cut (read s).root) (ht : (read s).trailing = false) : read s' = read s := by
  cases hvalue : value (4 * s.toList.length + 4) s.toList with
  | mk d rest =>
    cases rest with
    | none =>
      have hd := (cutAt _).value s.toList (congrArg Prod.snd hvalue)
      rw [hvalue] at hd
      refine absurd ?_ hcut
      rwa [read, hvalue]
    | some left =>
      obtain ⟨left', hvalue', hon⟩ := (spacedAt _).value hvalue ha
        (show 4 * s'.toList.length < 4 * s'.toList.length + 4 by omega)
      rw [read_of_value hvalue] at ht ⊢
      have hnil : skipBlanks left = [] := by simpa using ht
      rw [read_of_value hvalue', hon.alike.skipBlanks_eq_nil hnil, hnil]

end LinkTest.Json
