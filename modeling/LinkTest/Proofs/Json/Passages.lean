import LinkTest.Json.Reader

/-!
# From one part of a text to the next

What one step of reading comes to. The first character of a value says which form it has. Lists and
dictionaries are passed through in one way: the next mark ends them, or the text leads on to an
entry, or it is at fault there.
-/

namespace LinkTest.Json

variable {fuel : Nat} {first : Bool} {cs next r : List Char}

/-! ## Values -/

/-- What a value may be read as. -/
inductive Formed (fuel : Nat) : Datum × Rest → Prop
  | damaged (f : Fault) : Formed fuel (.damaged f (some f), none)
  | list (r : List Char) :
    Formed fuel (.list (items fuel true r).1 (items fuel true r).2.1, (items fuel true r).2.2)
  | dict (r : List Char) : Formed fuel
      (.dict (members fuel true r).1 (members fuel true r).2.1, (members fuel true r).2.2)
  | text (r : List Char) : Formed fuel (text r)
  | number (r : List Char) : Formed fuel (number r)
  | null (r : List Char) : Formed fuel (word .null "ull".toList r)
  | boolean (b : Bool) (letters r : List Char) : Formed fuel (word (.boolean b) letters r)

theorem formed_value (fuel : Nat) (cs : List Char) : Formed fuel (value (fuel + 1) cs) := by
  unfold value
  split
  · exact .damaged _
  · next c r _ =>
    split
    · exact .list r
    split
    · exact .dict r
    split
    · exact .text r
    split
    · exact .number (c :: r)
    split
    · exact .null r
    split
    · exact .boolean true _ r
    split
    · exact .boolean false _ r
    · exact .damaged _

/-! ## Entries -/

/-- The text leads on to an entry: at the first one it begins with it, and later a comma stands
before it. -/
inductive Leads (close : Char) : Bool → List Char → List Char → Prop
  | first {cs r : List Char} {c : Char} (h : skipBlanks cs = c :: r) (hc : c ≠ close) :
    Leads close true cs (c :: r)
  | further {cs r r' : List Char} {c : Char} (h : skipBlanks cs = ',' :: r)
    (h' : skipBlanks r = c :: r') (hc : c ≠ close) : Leads close false cs (c :: r')

theorem items_closed (h : skipBlanks cs = ']' :: r) (fuel : Nat) (first : Bool) :
    items (fuel + 1) first cs = ([], .strict, some r) := by
  rw [items, h]
  rfl

theorem items_of_leads (h : Leads ']' first cs next) (fuel : Nat) :
    items (fuel + 1) first cs = itemThen fuel next := by
  cases h with
  | first h hc =>
    rw [items, h]
    dsimp only
    rw [if_neg hc, if_pos rfl]
  | further h h' hc =>
    rw [items, h]
    dsimp only
    rw [if_neg (by decide), if_neg nofun, if_pos rfl, h']
    dsimp only
    rw [if_neg hc]

/-- Where a list goes on: it is at fault, it is closed, or there is an item. -/
theorem items_cases (fuel : Nat) (first : Bool) (cs : List Char) :
    (∃ f g, items (fuel + 1) first cs = ([], .broken f (some g), none)) ∨
      (∃ r, skipBlanks cs = ']' :: r) ∨ ∃ next, Leads ']' first cs next := by
  unfold items
  split
  · exact .inl ⟨_, _, rfl⟩
  · next c r hcs =>
    split
    · next hclose => exact .inr (.inl ⟨r, hclose ▸ hcs⟩)
    next hclose =>
    split
    · next hfirst => exact .inr (.inr ⟨c :: r, hfirst ▸ .first hcs hclose⟩)
    next hfirst =>
    split
    · next hcomma =>
      split
      · exact .inl ⟨_, _, rfl⟩
      · next d r' hr =>
        split
        · exact .inl ⟨_, _, rfl⟩
        · next hd =>
          have hlater : first = false := by simpa using hfirst
          exact .inr (.inr ⟨d :: r', hlater ▸ .further (hcomma ▸ hcs) hr hd⟩)
    · exact .inl ⟨_, _, rfl⟩

theorem members_closed (h : skipBlanks cs = '\x7d' :: r) (fuel : Nat) (first : Bool) :
    members (fuel + 1) first cs = ([], .strict, some r) := by
  rw [members, h]
  rfl

/-- A member is read from behind the opening quote of its key. -/
theorem members_of_leads (h : Leads '\x7d' first cs ('"' :: next)) (fuel : Nat) :
    members (fuel + 1) first cs = memberThen fuel next := by
  cases h with
  | first h hc =>
    rw [members, h]
    rfl
  | further h h' hc =>
    rw [members, h]
    dsimp only
    rw [if_neg (by decide), if_neg nofun, if_pos rfl, h']
    rfl

/-- Where a dictionary goes on: it is at fault, it is closed, or there is a member. -/
theorem members_cases (fuel : Nat) (first : Bool) (cs : List Char) :
    (∃ f g, members (fuel + 1) first cs = ([], .broken f (some g), none)) ∨
      (∃ r, skipBlanks cs = '\x7d' :: r) ∨ ∃ next, Leads '\x7d' first cs ('"' :: next) := by
  unfold members
  split
  · exact .inl ⟨_, _, rfl⟩
  · next c r hcs =>
    split
    · next hclose => exact .inr (.inl ⟨r, hclose ▸ hcs⟩)
    next hclose =>
    split
    · next hfirst =>
      split
      · next hquote =>
        subst hquote
        exact .inr (.inr ⟨r, hfirst ▸ .first hcs hclose⟩)
      · exact .inl ⟨_, _, rfl⟩
    next hfirst =>
    split
    · next hcomma =>
      split
      · exact .inl ⟨_, _, rfl⟩
      · next d r' hr =>
        split
        · next hquote =>
          subst hquote
          have hlater : first = false := by simpa using hfirst
          exact .inr (.inr ⟨r', hlater ▸ .further (hcomma ▸ hcs) hr (by decide)⟩)
        split
        · exact .inl ⟨_, _, rfl⟩
        · exact .inl ⟨_, _, rfl⟩
    · exact .inl ⟨_, _, rfl⟩

/-! ## Members -/

/-- A value behind its colon. -/
def colonThen (fuel : Nat) (cs : List Char) : Datum × Rest :=
  match skipBlanks cs with
  | [] => (.damaged .endInDict (some .endInDict), none)
  | c :: r => if c = ':' then value fuel r else (.damaged .noColon (some .noColon), none)

/-- What a member with this key contributes, if there is more text behind it. -/
def withKey (key : Except Fault String) (d : Datum) (ms : List (String × Datum)) (e : Ending) :
    List (String × Datum) × Ending :=
  match key with
  | .ok k => ((k, d) :: ms, e)
  | .error f => ([], .broken f ((d.skipFault.or (Datum.skipFaultMembers ms)).or e.skipFault))

/-- The members behind a value, if there is more text. -/
def moreMembers (fuel : Nat) : Rest → List (String × Datum) × Ending × Rest
  | none => ([], .strict, none)
  | some r => members fuel false r

/-- A member and those behind it, from behind the opening quote of its key. -/
theorem memberThen_of_key {said : Except Fault String} {rest : List Char}
    (hkey : textToken cs = ⟨said, .ok rest⟩) (fuel : Nat) : memberThen (fuel + 1) cs =
      ((withKey said (colonThen fuel rest).1 (moreMembers fuel (colonThen fuel rest).2).1
          (moreMembers fuel (colonThen fuel rest).2).2.1).1,
        (withKey said (colonThen fuel rest).1 (moreMembers fuel (colonThen fuel rest).2).1
          (moreMembers fuel (colonThen fuel rest).2).2.1).2,
        (moreMembers fuel (colonThen fuel rest).2).2.2) := by
  rw [memberThen, hkey]
  cases said <;> rfl

/-- A key either breaks off or has a rest behind it. -/
theorem memberThen_cases (fuel : Nat) (cs : List Char) :
    (∃ f g, memberThen (fuel + 1) cs = ([], .broken f (some g), none)) ∨
      ∃ said rest, textToken cs = ⟨said, .ok rest⟩ := by
  cases hkey : textToken cs with
  | mk said after =>
    cases after with
    | error g =>
      rw [memberThen, hkey]
      exact .inl ⟨_, _, rfl⟩
    | ok rest => exact .inr ⟨said, rest, rfl⟩

end LinkTest.Json
