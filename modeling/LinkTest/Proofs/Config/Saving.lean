import LinkTest.Config.Store
import LinkTest.Proofs.Config.RoundTrip
import LinkTest.Proofs.FileTree.Writing

/-!
# Configurations that are saved and loaded

Where a file can be written, a configuration that has a written form is saved so that it is loaded
again from the same path. One that has none is refused before a file is touched. Whatever has been
loaded can be saved.
-/

namespace LinkTest.Config

variable {t roomy after : FileTree} {path : String} {c : Config}

/-- A file can be written at the path, once there is a folder for it. -/
def Writable (t : FileTree) (path : String) : Prop := ∃ roomy written,
  (makeRoom t path).1 = .ok roomy ∧ roomy.writeText path "" = .ok written

theorem roomier_makeRoom (h : (makeRoom t path).1 = .ok roomy) : FileTree.Roomier t roomy := by
  unfold makeRoom at h
  split at h
  · obtain rfl := Except.ok.inj h
    exact .refl t
  · split at h
    · obtain rfl := Except.ok.inj h
      exact .refl t
    · exact FileTree.roomier_makeFolders (mapError_eq_ok.1 h)

/-- Once there is room, the outcome rests with the written form and the file. -/
theorem save_of_room (h : (makeRoom t path).1 = .ok roomy) : c.save path t =
    match c.toToml with
    | .error f => (.error f, roomy, (makeRoom t path).2)
    | .ok text =>
      match roomy.writeText path text with
      | .error f => (.error (.io f), roomy, (makeRoom t path).2)
      | .ok written => (.ok (), written,
          (makeRoom t path).2 ++ [.main .debug ("Config saved to " ++ path)]) := by
  rw [save]
  generalize makeRoom t path = room at h ⊢
  obtain ⟨result, notes⟩ := room
  obtain rfl : result = .ok roomy := h
  rfl

theorem load_of_text {s : String} (he : t.exists? path = true) (hr : t.readText path = .ok s)
    (hs : ofToml s = .ok c) : (load t path).1 = .ok c := by
  have hread : (t.readText path).mapError Failure.io >>= ofToml = .ok c :=
    bind_eq_ok.2 ⟨s, mapError_eq_ok.2 hr, hs⟩
  rw [load, if_pos he, hread]

/-- What is loaded was read from a text, or is the default. -/
theorem hasForm_of_load (h : (load t path).1 = .ok c) : c.HasForm ∧ c.InRange := by
  unfold load at h
  dsimp only at h
  split at h
  · split at h
    · next c' hread =>
      obtain rfl : c' = c := Except.ok.inj h
      obtain ⟨s, -, hs⟩ := bind_eq_ok.1 hread
      exact hasForm_of_ofToml hs
    · cases h
  · obtain rfl : default = c := Except.ok.inj h
    exact ⟨by decide, by decide, by decide, by decide⟩

/-- The configuration stands at the path in its written form, and apart from it every file is as it
was. -/
structure Stored (c : Config) (path : String) (t after : FileTree) : Prop where
  found : after.exists? path = true
  form : ∃ s, c.toToml = .ok s ∧ after.readText path = .ok s ∧ ofToml s = .ok c
  others : ∃ p, after.locate path = .ok p ∧ ∀ q, q ≠ p → after.file? q = t.file? q

theorem load_of_stored (h : c.Stored path t after) : (load after path).1 = .ok c := by
  obtain ⟨s, -, hread, hs⟩ := h.form
  exact load_of_text h.found hread hs

/-- Where a file can be written, a configuration that has a written form is stored. -/
theorem stored_of_save (hw : Writable t path) (hr : c.InRange) (hform : c.HasForm) :
    ∃ after notes, c.save path t = (.ok (), after, notes) ∧ c.Stored path t after := by
  obtain ⟨roomy, _, hroom, hempty⟩ := hw
  obtain ⟨p, hfree, -⟩ := FileTree.writeBytes_eq_ok_iff.1 hempty
  obtain ⟨s, hs, hread⟩ := ofToml_toToml hr hform
  have hwritten : roomy.writeText path s = .ok (roomy.put p (.file s.toUTF8)) :=
    FileTree.writeBytes_eq_ok_iff.2 ⟨p, hfree, rfl⟩
  obtain ⟨hexists, htext⟩ := FileTree.readText_of_writeText hwritten
  have hsaved : c.save path t = (.ok (), roomy.put p (.file s.toUTF8),
      (makeRoom t path).2 ++ [.main .debug ("Config saved to " ++ path)]) := by
    rw [save_of_room hroom, hs]
    dsimp only
    rw [hwritten]
  refine ⟨_, _, hsaved, hexists, ⟨s, hs, htext, hread⟩,
    p, (FileTree.holds_put hfree.entry).locate hfree.locate, fun q hq => ?_⟩
  rw [FileTree.file?, FileTree.put_entry_of_ne hq]
  exact (roomier_makeRoom hroom).file q

theorem load_save (hw : Writable t path) (hr : c.InRange) (hform : c.HasForm) :
    ∃ after notes, c.save path t = (.ok (), after, notes) ∧ (load after path).1 = .ok c := by
  obtain ⟨after, notes, hsaved, hstored⟩ := stored_of_save hw hr hform
  exact ⟨after, notes, hsaved, load_of_stored hstored⟩

/-- A configuration without a written form is refused, and no file is changed, made or removed. -/
theorem save_of_not_hasForm (hroom : (makeRoom t path).1 = .ok roomy) (hform : ¬c.HasForm) :
    c.save path t = (.error .tomlWrite, roomy, (makeRoom t path).2) := by
  rw [save_of_room hroom, toToml_of_not_hasForm hform]

/-- At a path where a file can be written, a configuration survives being saved and loaded if its
numbers have a written form. If they have none, this is said, every file there is stays as it is,
and the path leads where it led. Whatever has been loaded from anywhere survives. -/
theorem saved_survives (hw : Writable t path) :
    (∀ c : Config, c.InRange → c.HasForm → ∃ after notes,
      c.save path t = (.ok (), after, notes) ∧ (load after path).1 = .ok c) ∧
    (∀ c : Config, ¬c.HasForm → ∃ after notes,
      c.save path t = (.error .tomlWrite, after, notes) ∧ (∀ p, after.file? p = t.file? p) ∧
        ∀ p, t.locate path = .ok p → after.locate path = .ok p) ∧
    ∀ before source c, (load before source).1 = .ok c → ∃ after notes,
      c.save path t = (.ok (), after, notes) ∧ (load after path).1 = .ok c := by
  refine ⟨fun c hr hform => load_save hw hr hform, fun c hform => ?_, fun before source c h => ?_⟩
  · obtain ⟨roomy, _, hroom, -⟩ := hw
    have hroomier := roomier_makeRoom hroom
    exact ⟨roomy, _, save_of_not_hasForm hroom hform, hroomier.file,
      fun p hp => hroomier.holds.locate hp⟩
  · obtain ⟨hform, hr⟩ := hasForm_of_load h
    exact load_save hw hr hform

/-- Somebody's home, where nothing has been configured yet. -/
def emptyHome : FileTree := ⟨[(["home"], .folder)], ["home"]⟩

/-- A name that needs escapes, one that is empty and the largest number that has a form. -/
def awkward : Config :=
  ⟨"it's \"here\"\n\\ \x07", some "", none, 9223372036854775807, ⟨4294967295, 0⟩⟩

theorem awkward_survives :
    (∃ after notes, awkward.save (homePath "/home") emptyHome = (.ok (), after, notes) ∧
      (load after (homePath "/home")).1 = .ok awkward) ∧
    ∃ after notes, { awkward with exchangeTimeoutSeconds := 9223372036854775808 }.save
      (homePath "/home") emptyHome = (.error .tomlWrite, after, notes) ∧
        (∀ p, after.file? p = emptyHome.file? p) ∧
        ∀ p, emptyHome.locate (homePath "/home") = .ok p →
          after.locate (homePath "/home") = .ok p := by
  have hw : Writable emptyHome (homePath "/home") := ⟨_, _, rfl, rfl⟩
  exact ⟨(saved_survives hw).1 _ ⟨by decide, by decide, by decide⟩ (by decide),
    (saved_survives hw).2.1 _ (by decide)⟩

end LinkTest.Config
