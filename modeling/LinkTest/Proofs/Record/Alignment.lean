import LinkTest.Record.Table
import Mathlib.Data.List.Forall2

/-!
# Tables are aligned

The name column is as wide as the longest name has bytes, and names are filled up to it by
characters. No name has more characters than bytes, so each of them fits, and all values start at
one column.
-/

namespace LinkTest

theorem length_le_utf8ByteSize (s : String) : s.length ≤ s.utf8ByteSize := by
  induction s using String.push_induction with
  | empty => exact Nat.zero_le _
  | push s c ih =>
    have hc := c.utf8Size_pos
    rw [String.length_push, String.utf8ByteSize_push]
    omega

/-- In the line a value starts at the column: before it stand the whole name and blanks, two of them
at least, and behind it the line ends. -/
structure StartsAt (column : Nat) (name value line : String) : Prop where
  room : name.length + 2 ≤ column
  front : line.toList.take column = name.toList ++ List.replicate (column - name.length) ' '
  back : line.toList.drop column = value.toList ++ ['\n']

namespace Record

variable {m : Metrics} {name value : String} {width : Nat}

/-! ## The width of the name column -/

theorem le_nameWidth_of_mem (h : name ∈ m.names) : name.utf8ByteSize ≤ nameWidth m := by
  rw [nameWidth, List.foldl_max]
  exact Nat.le_trans (List.le_max?_getD_of_mem (List.mem_map_of_mem h)) (Nat.le_max_right _ _)

theorem nameHeader_le_nameWidth (m : Metrics) : nameHeader.utf8ByteSize ≤ nameWidth m := by
  rw [nameWidth, List.foldl_max]
  exact Nat.le_max_left _ _

/-! ## Lines -/

/-- A name that fits into the column is followed by its value at the column's end. -/
theorem startsAt_row (h : name.utf8ByteSize ≤ width) :
    StartsAt (width + 2) name value (row width name value) := by
  have hlength := length_le_utf8ByteSize name
  have hblanks : List.replicate (width - name.length) ' ' ++ [' ', ' '] =
      List.replicate (width + 2 - name.length) ' ' := by
    rw [show [' ', ' '] = List.replicate 2 ' ' from rfl, List.replicate_append_replicate,
      Nat.sub_add_comm (Nat.le_trans hlength h)]
  have hline : (row width name value).toList =
      (name.toList ++ List.replicate (width + 2 - name.length) ' ') ++ (value.toList ++ ['\n']) := by
    rw [← hblanks]
    simp [row, fill, String.toList_append]
  have hfront : (name.toList ++ List.replicate (width + 2 - name.length) ' ').length =
      width + 2 := by
    rw [List.length_append, List.length_replicate, String.length_toList]
    omega
  exact ⟨by omega, by rw [hline, List.take_left' hfront], by rw [hline, List.drop_left' hfront]⟩

/-- The line of dashes below the header of a table with this column. -/
def ruleLine (column : Nat) : String := String.ofList (List.replicate (column + 6) '-') ++ "\n"

/-- The last line of a record's table. -/
def footer (r : Record) : String :=
  "recorded " ++ r.stamp.time.tableText ++ " (" ++ r.stamp.id.short ++ ")\n"

/-- A table has a header, a rule, a line for each metric in the order of names, and a footer. In the
header and in all of the lines the value starts at one column. -/
inductive Tabulated (r : Record) : String → Prop
  | lines {column : Nat} {header : String} {rows : List String}
    (header_start : StartsAt column nameHeader "value" header)
    (rows_start : List.Forall₂ (fun e line => StartsAt column e.1 e.2.display line)
      r.metrics.entries rows)
    (ascending : r.metrics.names.Pairwise (· < ·)) :
    Tabulated r (header ++ ruleLine column ++ String.join rows ++ r.footer)

theorem startsAt_rows (m : Metrics) : List.Forall₂
    (fun e line => StartsAt (nameWidth m + 2) e.1 e.2.display line) m.entries
    (m.entries.map fun e => row (nameWidth m) e.1 e.2.display) := by
  rw [List.forall₂_map_right_iff, List.forall₂_same]
  exact fun e he => startsAt_row (le_nameWidth_of_mem (List.mem_map_of_mem he))

/-- A valid record is shown as a table in which all values start at one column. For an invalid one
only the reason is shown, if there is one. -/
theorem renderTable_aligned (r : Record) :
    (r.isValid = true → r.Tabulated r.renderTable) ∧
    (r.isValid = false →
      r.renderTable = renderFailure (r.failure.getD "unknown failure")) := by
  obtain ⟨stamp, content⟩ := r
  cases content with
  | error reason => exact ⟨nofun, fun _ => rfl⟩
  | ok m =>
    refine ⟨fun _ => ?_, nofun⟩
    have htable : (Record.mk stamp (.ok m)).renderTable =
        row (nameWidth m) nameHeader "value" ++ ruleLine (nameWidth m + 2) ++
          String.join (m.entries.map fun e => row (nameWidth m) e.1 e.2.display) ++
          footer ⟨stamp, .ok m⟩ := by
      simp only [renderTable, ruleLine, footer, String.append_assoc]
    rw [htable]
    exact .lines (startsAt_row (nameHeader_le_nameWidth m)) (startsAt_rows m)
      (List.pairwise_map.2 m.sorted)

/-- A record whose longest name has three bytes for each of its characters. -/
def accented : Record :=
  .measured ⟨⟨0xc0ffee00#128 <<< 96⟩, ⟨(Timestamp.Date.mk 2000 1 1).toDays, 43200, 0⟩⟩ (.ofList [
    ("latency_ms", .number (.ofNat 42)), ("throughput_mbps", .number (.ofNat 87)),
    ("größe", .text "ungefähr 3"), ("往復時間の平均", .number .nan)])

theorem renderTable_aligned_accented :
    accented.Tabulated accented.renderTable ∧
    (failed accented.stamp "timed out").renderTable = renderFailure "timed out" :=
  ⟨(renderTable_aligned accented).1 (by decide +kernel), (renderTable_aligned _).2 rfl⟩

example : accented.renderTable =
    "metric                 value\n" ++
    "-----------------------------\n" ++
    "größe                  ungefähr 3\n" ++
    "latency_ms             42\n" ++
    "throughput_mbps        87\n" ++
    "往復時間の平均                NaN\n" ++
    "recorded 2000-01-01 12:00:00 UTC (c0ffee00)\n" := by
  decide +kernel

end Record
end LinkTest
