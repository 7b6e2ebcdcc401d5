import LinkTest.Proofs.Json.Spacing
import LinkTest.Proofs.Json.Wholes

/-!
# Values and their data

A codec pairs the reader of a type with its form as a datum. It reads back what it writes, also
when that has been JSON text in between, and it reads nothing that is not a value of the type or in
which a text has broken off.
-/

namespace LinkTest.Wire

open Json (Cut echo echoItems)

structure Codec (α : Type) where
  decoder : Decoder α
  datum : α → Datum
  /-- The values that the type has. -/
  Proper : α → Prop
  /-- The least and the greatest value of a type of numbers. -/
  range : Option (Int × Int)
  decode : ∀ x, Proper x → decoder (datum x) = .ok x
  steady : ∀ x, Proper x → echo (datum x) = datum x
  proper : ∀ d x, decoder d = .ok x → Proper x
  not_cut : ∀ d x, decoder d = .ok x → ¬Cut d
  whole : ∀ low high, range = some (low, high) → ∀ d x, decoder d = .ok x →
    ∃ m, d = .whole m ∧ low ≤ m ∧ m ≤ high

namespace Codec

variable {α : Type}

theorem decode_echo (c : Codec α) {x : α} (hx : c.Proper x) :
    c.decoder (echo (c.datum x)) = .ok x := by
  rw [c.steady x hx, c.decode x hx]

def text : Codec String where
  decoder := Decoder.text
  datum := .text
  Proper _ := True
  range := none
  decode _ _ := rfl
  steady _ _ := rfl
  proper _ _ _ := trivial
  not_cut d s h := by
    obtain rfl := Decoder.text_eq_ok_iff.1 h
    nofun
  whole := nofun

/-! ## Numbers -/

theorem wholeIn_eq_ok_iff {type : String} {low high m : Int} {d : Datum} :
    Decoder.wholeIn type low high d = .ok m ↔ d = .whole m ∧ low ≤ m ∧ m ≤ high := by
  unfold Decoder.wholeIn
  split
  · next n =>
    split
    · next hn =>
      simp only [Except.ok.injEq, Datum.whole.injEq]
      exact ⟨fun h => ⟨h, h ▸ hn⟩, And.left⟩
    · next hn =>
      refine ⟨nofun, fun ⟨h, hm⟩ => absurd ?_ hn⟩
      obtain rfl := Datum.whole.inj h
      exact hm
  · next hne => exact ⟨nofun, fun h => absurd h.1 (hne m)⟩

def integer (type : String) (low high : Int) (hlow : -(Nat.pow 2 63) ≤ low)
    (hhigh : high < Nat.pow 2 64) : Codec Int where
  decoder := Decoder.wholeIn type low high
  datum := .whole
  Proper m := low ≤ m ∧ m ≤ high
  range := some (low, high)
  decode _ hm := wholeIn_eq_ok_iff.2 ⟨rfl, hm⟩
  steady _ hm := Json.echo_whole (Int.le_trans hlow hm.1) (Int.lt_of_le_of_lt hm.2 hhigh)
  proper _ _ h := (wholeIn_eq_ok_iff.1 h).2
  not_cut d m h := by
    obtain ⟨rfl, -⟩ := wholeIn_eq_ok_iff.1 h
    nofun
  whole := by
    rintro _ _ ⟨⟩ d m h
    exact ⟨m, wholeIn_eq_ok_iff.1 h⟩

def natural (type : String) (high : Int) (hhigh : high < Nat.pow 2 64) : Codec Nat where
  decoder d := (Decoder.wholeIn type 0 high d).map Int.toNat
  datum n := .whole n
  Proper n := n ≤ high
  range := some (0, high)
  decode _ hn := Decoder.natural_eq_ok_iff.2 ⟨rfl, hn⟩
  steady n hn := Json.echo_whole (Int.le_trans (by decide) (Int.natCast_nonneg n))
    (Int.lt_of_le_of_lt hn hhigh)
  proper _ _ h := (Decoder.natural_eq_ok_iff.1 h).2
  not_cut d n h := by
    obtain ⟨rfl, -⟩ := Decoder.natural_eq_ok_iff.1 h
    nofun
  whole := by
    rintro _ _ ⟨⟩ d n h
    obtain ⟨rfl, hn⟩ := Decoder.natural_eq_ok_iff.1 h
    exact ⟨n, rfl, Int.natCast_nonneg n, hn⟩

/-! ## Options and lists -/

/-- A value or nothing, for a codec that writes something for each value. -/
def optional (c : Codec α) (hsome : ∀ x, c.datum x ≠ .null) : Codec (Option α) where
  decoder := Decoder.optional c.decoder
  datum
    | some x => c.datum x
    | none => .null
  Proper o := ∀ x, o = some x → c.Proper x
  range := none
  decode o ho := by
    cases o with
    | none => rfl
    | some x => exact Decoder.optional_eq_ok_iff.2 (.inr ⟨hsome x, x, c.decode x (ho x rfl), rfl⟩)
  steady o ho := by
    cases o with
    | none => rfl
    | some x => exact c.steady x (ho x rfl)
  proper d o h := by
    rintro x rfl
    rcases Decoder.optional_eq_ok_iff.1 h with ⟨-, hnone⟩ | ⟨-, y, hy, heq⟩
    · cases hnone
    · obtain rfl := Option.some.inj heq
      exact c.proper d x hy
  not_cut d o h := by
    rcases Decoder.optional_eq_ok_iff.1 h with ⟨rfl, -⟩ | ⟨-, x, hx, -⟩
    · nofun
    · exact c.not_cut d x hx
  whole := nofun

theorem listOf_eq_ok_iff {decoder : Decoder α} {d : Datum} {xs : List α} :
    Decoder.listOf decoder d = .ok xs ↔ ∃ items e, d = .list items e ∧ e.readFault = none ∧
      items.map decoder = xs.map .ok := by
  have hmapM : ∀ (items : List Datum) (xs : List α),
      items.mapM decoder = .ok xs ↔ items.map decoder = xs.map .ok := by
    intro items
    induction items with
    | nil => intro xs; cases xs <;> simp [pure, Except.pure]
    | cons d items ih =>
      intro xs
      rw [List.mapM_cons, bind_eq_ok]
      constructor
      · rintro ⟨x, hx, h⟩
        obtain ⟨ys, hys, h⟩ := bind_eq_ok.1 h
        obtain rfl : x :: ys = xs := Except.ok.inj h
        rw [List.map_cons, List.map_cons, hx, (ih ys).1 hys]
      · intro h
        cases xs with
        | nil => cases h
        | cons x xs =>
          rw [List.map_cons, List.map_cons] at h
          obtain ⟨hx, hxs⟩ := List.cons.inj h
          exact ⟨x, hx, bind_eq_ok.2 ⟨xs, (ih xs).2 hxs, rfl⟩⟩
  cases d with
  | list items e =>
    rw [Decoder.listOf, bind_eq_ok]
    constructor
    · rintro ⟨ys, hys, h⟩
      obtain ⟨_, hc, h⟩ := bind_eq_ok.1 h
      obtain rfl := Except.ok.inj h
      exact ⟨items, e, rfl, Decoder.closing_eq_ok_iff.1 hc, (hmapM _ _).1 hys⟩
    · rintro ⟨_, _, heq, hc, hitems⟩
      obtain ⟨rfl, rfl⟩ := Datum.list.inj heq
      exact ⟨xs, (hmapM _ _).2 hitems, bind_eq_ok.2 ⟨(), Decoder.closing_eq_ok_iff.2 hc, rfl⟩⟩
  | _ => exact ⟨fun h => (by cases h), fun ⟨_, _, h, _⟩ => (by cases h)⟩

theorem echoItems_eq_map (items : List Datum) : echoItems items = items.map echo := by
  induction items with
  | nil => rfl
  | cons d items ih => rw [echoItems, ih, List.map_cons]

def list (c : Codec α) : Codec (List α) where
  decoder := Decoder.listOf c.decoder
  datum xs := .list (xs.map c.datum) .strict
  Proper xs := ∀ x ∈ xs, c.Proper x
  range := none
  decode xs hxs := by
    refine listOf_eq_ok_iff.2 ⟨_, _, rfl, rfl, ?_⟩
    rw [List.map_map]
    exact List.map_congr_left fun x hx => c.decode x (hxs x hx)
  steady xs hxs := by
    rw [echo, echoItems_eq_map, List.map_map]
    exact congrArg (Datum.list · .strict) (List.map_congr_left fun x hx => c.steady x (hxs x hx))
  proper d xs h x hx := by
    obtain ⟨items, e, -, -, hitems⟩ := listOf_eq_ok_iff.1 h
    have hmem : .ok x ∈ items.map c.decoder := hitems ▸ List.mem_map_of_mem hx
    obtain ⟨item, -, hitem⟩ := List.mem_map.1 hmem
    exact c.proper item x hitem
  not_cut d xs h hcut := by
    obtain ⟨items, e, rfl, hc, hitems⟩ := listOf_eq_ok_iff.1 h
    cases hcut with
    | list _ f g => cases hc
    | @item items d hcut =>
      have hmem : c.decoder d ∈ xs.map .ok := hitems ▸ List.mem_map_of_mem (by simp)
      obtain ⟨x, -, hx⟩ := List.mem_map.1 hmem
      exact c.not_cut d x hx.symm hcut
  whole := nofun

end Codec
end LinkTest.Wire
