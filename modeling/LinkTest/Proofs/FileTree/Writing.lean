import LinkTest.FileTree
import LinkTest.Proofs.Datum.Fields

/-!
# Files that are written and folders that are made

A file that was written is found by its path with what was written. Making folders puts them where
nothing stood and leaves everything else alone: no file is changed, none comes or goes, and every
path that led somewhere leads there still.
-/

namespace LinkTest.FileTree

variable {t t' : FileTree} {p q : Place} {e : Entry} {path : String} {bytes : ByteArray}

/-- The file that stands in a place, if it is a file. -/
def file? (t : FileTree) (p : Place) : Option ByteArray :=
  match t.entry? p with
  | some (.file bytes) => some bytes
  | _ => none

/-! ## One place changed -/

theorem put_entry_of_ne (h : q ≠ p) : entry? (t.put p e) q = t.entry? q := by
  have hfilter : ∀ l : List (Place × Entry), (l.filter fun x => x.1 ≠ p).lookup q = l.lookup q := by
    intro l
    induction l with
    | nil => rfl
    | cons x l ih =>
      obtain ⟨r, e'⟩ := x
      by_cases hr : r = p
      · subst hr
        rw [List.filter_cons_of_neg (by simp), ih, List.lookup_cons, beq_false_of_ne h]
      · rw [List.filter_cons_of_pos (by simpa using hr), List.lookup_cons, List.lookup_cons, ih]
  unfold entry?
  split
  · rfl
  · rw [put, List.lookup_cons, beq_false_of_ne h, hfilter]

theorem put_entry_self (hp : p ≠ []) : entry? (t.put p e) p = some e := by
  unfold entry?
  rw [if_neg (by simpa using hp), put, List.lookup_cons, beq_self_eq_true]

/-- All folders of one tree are in the other, which is worked in from the same folder. -/
structure Holds (t t' : FileTree) : Prop where
  here : t'.here = t.here
  folder : ∀ q, t.entry? q = some .folder → t'.entry? q = some .folder

theorem Holds.refl (t : FileTree) : Holds t t := ⟨rfl, fun _ h => h⟩

theorem Holds.trans {t'' : FileTree} (h : Holds t t') (h' : Holds t' t'') : Holds t t'' :=
  ⟨h'.here.trans h.here, fun q hq => h'.folder q (h.folder q hq)⟩

theorem holds_put (hp : t.entry? p ≠ some .folder) : Holds t (t.put p e) := by
  refine ⟨rfl, fun q hq => ?_⟩
  have hne : q ≠ p := fun heq => hp (heq ▸ hq)
  rw [put_entry_of_ne hne, hq]

/-- Ways lead through folders alone. -/
theorem Holds.follow (h : Holds t t') {parts : List String} (hf : t.follow q parts = .ok p) :
    t'.follow q parts = .ok p := by
  induction parts generalizing q with
  | nil => exact hf
  | cons part rest ih =>
    rw [FileTree.follow] at hf ⊢
    split at hf
    · next hq =>
      rw [h.folder q hq]
      exact ih hf
    · cases hf
    · cases hf

theorem Holds.locate (h : Holds t t') (hl : t.locate path = .ok p) : t'.locate path = .ok p := by
  unfold FileTree.locate at hl ⊢
  split at hl
  · cases hl
  · next hpath =>
    have horigin : t'.origin path = t.origin path := by rw [origin, origin, h.here]
    rw [if_neg hpath, horigin]
    exact h.follow hl

/-! ## Files -/

/-- A place where a file can be written: no folder stands there, and none is asked for. -/
structure Free (t : FileTree) (path : String) (p : Place) : Prop where
  locate : t.locate path = .ok p
  entry : t.entry? p ≠ some .folder
  asks : PathName.asksFolder path = false

/-- What stands in a place is found there, but for a file by a path that asks for a folder. -/
theorem find?_eq_ok_iff (hl : t.locate path = .ok p) {found : Option Entry} :
    t.find? path = .ok found ↔ t.entry? p = found ∧
      ((∃ old, found = some (.file old)) → PathName.asksFolder path = false) := by
  rw [find?, hl]
  change (match t.entry? p with
    | some (.file old) =>
      if PathName.asksFolder path then Except.error noFolder else .ok (some (Entry.file old))
    | found => .ok found) = _ ↔ _
  split
  · next old he =>
    rw [he]
    split
    · next ha => exact ⟨nofun, fun h => by simp [h.2 ⟨old, h.1.symm⟩] at ha⟩
    · next ha =>
      exact ⟨fun h => ⟨Except.ok.inj h, fun _ => by simpa using ha⟩,
        fun h => congrArg Except.ok h.1⟩
  · next hne =>
    constructor
    · intro h
      obtain rfl := Except.ok.inj h
      exact ⟨rfl, fun ⟨old, hold⟩ => absurd hold (hne old)⟩
    · exact fun h => congrArg Except.ok h.1

/-- A file is written exactly where one can be, and nothing else is changed. -/
theorem writeBytes_eq_ok_iff :
    t.writeBytes path bytes = .ok t' ↔ ∃ p, Free t path p ∧ t' = t.put p (.file bytes) := by
  constructor
  · intro h
    obtain ⟨p, hl, h⟩ := bind_eq_ok.1 h
    obtain ⟨found, hfound, h⟩ := bind_eq_ok.1 h
    obtain ⟨hentry, ha⟩ := (find?_eq_ok_iff hl).1 hfound
    cases found with
    | none =>
      dsimp only at h
      split at h
      · cases h
      · next hasks =>
        exact ⟨p, ⟨hl, by rw [hentry]; nofun, by simpa using hasks⟩, (Except.ok.inj h).symm⟩
    | some e =>
      cases e with
      | folder => cases h
      | file old =>
        exact ⟨p, ⟨hl, by rw [hentry]; nofun, ha ⟨old, rfl⟩⟩, (Except.ok.inj h).symm⟩
  · rintro ⟨p, ⟨hl, he, ha⟩, rfl⟩
    refine bind_eq_ok.2 ⟨p, hl, bind_eq_ok.2 ⟨_, (find?_eq_ok_iff hl).2 ⟨rfl, fun _ => ha⟩, ?_⟩⟩
    cases hentry : t.entry? p with
    | none =>
      rw [ha]
      rfl
    | some e =>
      cases e with
      | folder => exact absurd hentry he
      | file old => rfl

/-- A file that was written is found with what was written. -/
theorem find?_of_writeBytes (h : t.writeBytes path bytes = .ok t') :
    t'.find? path = .ok (some (.file bytes)) := by
  obtain ⟨p, ⟨hl, he, ha⟩, rfl⟩ := writeBytes_eq_ok_iff.1 h
  have hp : p ≠ [] := by
    rintro rfl
    exact he rfl
  exact (find?_eq_ok_iff ((holds_put he).locate hl)).2 ⟨put_entry_self hp, fun _ => ha⟩

theorem readText_of_writeText {text : String} (h : t.writeText path text = .ok t') :
    t'.exists? path = true ∧ t'.readText path = .ok text := by
  have hfound := find?_of_writeBytes h
  have hvalid : text.toUTF8.IsValidUTF8 := text.isValidUTF8
  have htext : String.fromUTF8? text.toUTF8 = some text := by
    rw [String.fromUTF8?, dif_pos hvalid]
    rfl
  constructor
  · rw [exists?, hfound]
  · refine bind_eq_ok.2 ⟨_, hfound, ?_⟩
    dsimp only
    rw [htext]

/-! ## Folders -/

/-- More folders than before, in places where nothing stood. -/
structure Roomier (t t' : FileTree) : Prop where
  holds : Holds t t'
  file : ∀ q, t'.file? q = t.file? q

theorem Roomier.refl (t : FileTree) : Roomier t t := ⟨.refl t, fun _ => rfl⟩

theorem Roomier.trans {t'' : FileTree} (h : Roomier t t') (h' : Roomier t' t'') : Roomier t t'' :=
  ⟨h.holds.trans h'.holds, fun q => (h'.file q).trans (h.file q)⟩

theorem roomier_put_folder (hp : t.entry? p = none) : Roomier t (t.put p .folder) := by
  have hne : p ≠ [] := by
    rintro rfl
    cases hp
  refine ⟨holds_put (by rw [hp]; nofun), fun q => ?_⟩
  by_cases hq : q = p
  · subst hq
    rw [file?, file?, put_entry_self hne, hp]
  · rw [file?, file?, put_entry_of_ne hq]

theorem roomier_makeAlong {parts : List String} (h : t.makeAlong p parts = .ok t') :
    Roomier t t' := by
  induction parts generalizing t p with
  | nil =>
    obtain rfl := Except.ok.inj h
    exact .refl t
  | cons part rest ih =>
    rw [makeAlong] at h
    split at h
    · exact ih h
    · cases h
    · next hnone => exact (roomier_put_folder hnone).trans (ih h)

theorem roomier_makeFolders (h : t.makeFolders path = .ok t') : Roomier t t' :=
  roomier_makeAlong h

end LinkTest.FileTree
