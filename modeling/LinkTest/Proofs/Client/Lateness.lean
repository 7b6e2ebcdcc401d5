import LinkTest.Proofs.Client.Calls
import LinkTest.Proofs.Client.Exchange

/-!
# Late answers

A server that answers each request with one line, in order, may be late. The line that is read next
on a connection is the answer to the oldest request whose answer was not read yet. As long as each
exchange on the connection has read its line, this is the exchange's own request. A call that is
given up while it waits for its answer leaves the connection open, and from then on every exchange
reads the answer to an earlier request.
-/

namespace LinkTest

open Connection (newlineByte)

/-! ## Lines in a row of bytes -/

/-- What stands before the first end of a line is determined by the whole. -/
theorem eq_of_isPrefix_line {a b x y : List UInt8} (ha : newlineByte ∉ a) (hb : newlineByte ∉ b)
    (h : a ++ newlineByte :: x <+: b ++ [newlineByte] ++ y) : a = b := by
  obtain ⟨z, h⟩ := h
  have front : ∀ (u v : List UInt8), newlineByte ∉ u →
      (u ++ newlineByte :: v).takeWhile (· ≠ newlineByte) = u := by
    intro u v hu
    rw [List.takeWhile_append_of_pos fun c hc => ?_]
    · simp
    · simpa using fun he : c = newlineByte => hu (he ▸ hc)
  have hfronts := congrArg (List.takeWhile (· ≠ newlineByte)) h
  rw [List.append_assoc, List.cons_append, List.append_assoc, List.singleton_append,
    front a _ ha, front b _ hb] at hfronts
  exact hfronts

theorem isPrefix_of_isPrefix_line {a b y : List UInt8} (ha : newlineByte ∉ a)
    (h : a <+: b ++ [newlineByte] ++ y) : a <+: b := by
  rw [List.append_assoc] at h
  rcases List.prefix_or_prefix_of_prefix h (List.prefix_append b _) with h' | ⟨t, rfl⟩
  · exact h'
  · cases t with
    | nil => simp
    | cons c t =>
      obtain ⟨z, hz⟩ := h
      rw [List.append_assoc, List.append_cancel_left_eq] at hz
      obtain ⟨rfl, -⟩ := List.cons.inj hz
      exact absurd (by simp) ha

namespace Network

/-- A row of bytes that is one line with its end. -/
def IsLine (bytes : List UInt8) : Prop := ∃ body, newlineByte ∉ body ∧ bytes = body ++ [newlineByte]

/-- All that the server sends on a connection for its first `k` requests. -/
def sentFor (n : Network) (i k : Nat) : List UInt8 := ((n.turnsOf i).take k).flatMap Turn.bytes

/-- The answers to the first `k` requests on a connection, one behind the other. -/
def answers (answer : Nat → Nat → List UInt8) (i k : Nat) : List UInt8 :=
  (List.range k).flatMap (answer i)

/-- The server answers each request on each connection with one line, in order, perhaps late: what
has come after `k` requests is a beginning of the answers to these. -/
structure AnswersInTurn (n : Network) (answer : Nat → Nat → List UInt8) : Prop where
  line : ∀ i j, IsLine (answer i j)
  inTurn : ∀ i k, n.sentFor i k <+: answers answer i k

variable {n n' : Network} {answer : Nat → Nat → List UInt8} {i k s : Nat}

theorem answers_succ (answer : Nat → Nat → List UInt8) (i k : Nat) :
    answers answer i (k + 1) = answers answer i k ++ answer i k := by
  simp [answers, List.range_succ]

theorem AnswersInTurn.of_plans (h : n.AnswersInTurn answer) (hp : n'.serverPlans = n.serverPlans) :
    n'.AnswersInTurn answer := by
  refine ⟨h.line, fun i k => ?_⟩
  rw [sentFor, turnsOf, hp]
  exact h.inTurn i k

/-- The answers to more requests go on from those to fewer. -/
theorem exists_answers_of_lt (answer : Nat → Nat → List UInt8) (i : Nat) (h : s < k) :
    ∃ more, answers answer i k = answers answer i s ++ (answer i s ++ more) := by
  induction k with
  | zero => cases h
  | succ k ih =>
    rcases Nat.lt_succ_iff_lt_or_eq.1 h with h | rfl
    · obtain ⟨more, hm⟩ := ih h
      exact ⟨more ++ answer i k, by rw [answers_succ, hm]; simp⟩
    · exact ⟨[], by rw [answers_succ, List.append_nil]⟩

theorem answers_isPrefix (answer : Nat → Nat → List UInt8) (i : Nat) (h : s ≤ k) :
    answers answer i s <+: answers answer i k := by
  rcases Nat.lt_or_eq_of_le h with hlt | rfl
  · obtain ⟨more, hm⟩ := exists_answers_of_lt answer i hlt
    exact ⟨_, hm.symm⟩
  · exact List.prefix_refl _

/-- What was sent for `k` requests goes beyond the answers to `s` requests only if these are
fewer. -/
theorem lt_of_sentFor {more : List UInt8} (hne : more ≠ [])
    (h : answers answer i s ++ more <+: answers answer i k) : s < k := by
  refine Nat.lt_of_not_le fun hle => ?_
  have hlen := (h.trans (answers_isPrefix answer i hle)).length_le
  rw [List.length_append] at hlen
  exact hne (List.eq_nil_of_length_eq_zero (by omega))

theorem sentFor_succ {t : Turn} {rest : List Turn} (ht : t :: rest = (n.turnsOf i).drop k) :
    n.sentFor i (k + 1) = n.sentFor i k ++ t.bytes := by
  have hk : (n.turnsOf i)[k]? = some t := by
    rw [← List.head?_drop, ← ht]
    rfl
  rw [sentFor, List.take_add_one, hk, Option.toList_some, List.flatMap_append,
    List.flatMap_singleton]
  rfl

theorem sentFor_succ_of_nil (ht : (n.turnsOf i).drop k = []) :
    n.sentFor i (k + 1) = n.sentFor i k := by
  have hle := List.drop_eq_nil_iff.1 ht
  rw [sentFor, sentFor, List.take_of_length_le hle, List.take_of_length_le (Nat.le_succ_of_le hle)]

end Network

/-! ## Where a connection stands -/

/-- The exchanges on a connection: those that have read a line, and those that were given up while
they were waiting for one. -/
structure Tally where
  heard : Nat
  torn : Nat
deriving DecidableEq

/-- How many requests were made on the connection. -/
def Tally.asked (t : Tally) : Nat := t.heard + t.torn

namespace Network

variable {n n' : Network} {answer : Nat → Nat → List UInt8} {c c' : Connection} {t : Tally}
  {lines : List String}

/-- Where a connection stands on which these requests were made: as many answers as lines were heard
have been read, and of the next one the part `lost` that came before a wait was given up. -/
inductive Stands (n : Network) (answer : Nat → Nat → List UInt8) (t : Tally) (lines : List String)
    (c : Connection) : Prop
  | server {i : Nat} (lost : List UInt8) (hi : c.index = some i) (hlt : i < n.requests.length)
    (ht : c.turns = (n.turnsOf i).drop (n.linesOf i).length)
    (hk : n.linesOf i <+: lines) (hw : c.tail = .waiting → n.linesOf i = lines)
    (hs : n.sentFor i (n.linesOf i).length = answers answer i t.heard ++ (lost ++ c.incoming))
    (hl : newlineByte ∉ lost) (hwhole : t.torn = 0 → lost = [])
  /-- Its stream is over, and there is nothing left to be read. -/
  | spent (hin : c.incoming = []) (ht : c.tail ≠ .waiting)
  /-- It does not lead to the test server. -/
  | target (hi : c.index = none)

theorem Stands.later (h : n.Stands answer t lines c) (hn : n.Later n') :
    n'.Stands answer t lines c := by
  cases h with
  | spent hin ht => exact .spent hin ht
  | target hi => exact .target hi
  | @server i lost hi hlt ht hk hw hs hl hwhole =>
    refine .server lost hi (Nat.lt_of_lt_of_le hlt hn.count) ?_ ?_ ?_ ?_ hl hwhole
    · rw [hn.turns, hn.lines]
      exact ht
    · rw [hn.lines]
      exact hk
    · rw [hn.lines]
      exact hw
    · rw [sentFor, hn.turns, hn.lines]
      exact hs

/-- A new connection. -/
theorem stands_of_attempted {outcome : Dialled} (h : n.Attempted outcome n')
    (hc : outcome = .connected c) : n'.Stands answer ⟨0, 0⟩ [] c := by
  cases h.inStep c hc with
  | target hi _ => exact .target hi
  | server hi hlt hin ht =>
    have hnone := h.fresh c _ hc hi
    refine .server [] hi hlt ht ?_ (fun _ => hnone) ?_ (by simp) fun _ => rfl
    · simp only [hnone, List.prefix_rfl]
    · rw [hnone, hin]
      rfl

/-- A request is made: either the server takes it, or the stream is over and it is lost. -/
theorem Stands.send {line : String} (h : n.Stands answer t lines c)
    (hs : n.send line c = (.ok c', n')) : n'.Stands answer t (lines ++ [line]) c' := by
  unfold Network.send at hs
  split at hs
  · cases hs
  · split at hs
    · next i hidx htail =>
      cases h with
      | target hi => cases hi.symm.trans hidx
      | spent hin ht => exact absurd htail ht
      | @server k lost hi hlt ht hk hw hsent hl hwhole =>
        obtain rfl : k = i := Option.some.inj (hi.symm.trans hidx)
        have hmade : linesOf { n with requests := n.requests.modify k (· ++ [line]) } k =
            n.linesOf k ++ [line] := by
          rw [n.linesOf_modify hlt line k, if_pos rfl]
        have hall : n.linesOf k ++ [line] = lines ++ [line] := by rw [hw htail]
        dsimp only at hs
        split at hs
        · next hturns =>
          obtain ⟨rfl, rfl⟩ : _ = c' ∧ _ = n' := by simpa using hs
          rw [hturns] at ht
          refine .server lost hi (by simpa using hlt) ?_ ?_ nofun ?_ hl hwhole
          · rw [hmade, List.length_append, ← List.drop_drop]
            change c.turns = ((n.turnsOf k).drop _).drop _
            rw [hturns, ← ht]
            rfl
          · simp only [hmade, hall, List.prefix_rfl]
          · rw [hmade, List.length_append]
            exact (sentFor_succ_of_nil ht.symm).trans hsent
        · next u rest hturns =>
          obtain ⟨rfl, rfl⟩ : _ = c' ∧ _ = n' := by simpa using hs
          rw [hturns] at ht
          refine .server lost hi (by simpa using hlt) ?_ ?_
            (fun _ => hmade.trans hall) ?_ hl hwhole
          · rw [hmade, List.length_append, ← List.drop_drop]
            change rest = ((n.turnsOf k).drop _).drop _
            rw [← ht]
            rfl
          · simp only [hmade, hall, List.prefix_rfl]
          · rw [hmade, List.length_append]
            refine (sentFor_succ ht).trans ?_
            rw [hsent]
            simp
    · next hnone =>
      obtain ⟨rfl, rfl⟩ : c = c' ∧ n = n' := by simpa using hs
      cases h with
      | target hi => exact .target hi
      | spent hin ht => exact .spent hin ht
      | @server k lost hi hlt ht hk hw hsent hl hwhole =>
        exact .server lost hi hlt ht (hk.trans (List.prefix_append _ _))
          (fun h => absurd h (hnone k hi)) hsent hl hwhole

/-- What was sent beyond the answers to `s` requests begins with the next answer. -/
theorem AnswersInTurn.exists_next {i k s : Nat} {more : List UInt8} (h : n.AnswersInTurn answer)
    (hs : n.sentFor i k = answers answer i s ++ more) (hne : more ≠ []) :
    ∃ body later, newlineByte ∉ body ∧ answer i s = body ++ [newlineByte] ∧
      more <+: body ++ [newlineByte] ++ later := by
  have hprefix := h.inTurn i k
  rw [hs] at hprefix
  obtain ⟨later, hlater⟩ := exists_answers_of_lt answer i (lt_of_sentFor hne hprefix)
  rw [hlater, List.prefix_append_right_inj] at hprefix
  obtain ⟨body, hbody, hline⟩ := h.line i s
  exact ⟨body, later, hbody, hline, hline ▸ hprefix⟩

/-- The requests that the server has taken are all that were made, if none was given up and there is
something left to be read after the latest. -/
theorem AnswersInTurn.linesOf_eq {i s : Nat} {more : List UInt8} (h : n.AnswersInTurn answer)
    (hs : n.sentFor i (n.linesOf i).length = answers answer i s ++ more) (hne : more ≠ [])
    (hk : n.linesOf i <+: lines) (hl : lines.length = s + 1) : n.linesOf i = lines := by
  have hprefix := h.inTurn i (n.linesOf i).length
  rw [hs] at hprefix
  have hlt := lt_of_sentFor hne hprefix
  exact hk.eq_of_length (Nat.le_antisymm hk.length_le (hl ▸ hlt))

/-- The bytes are what an exchange reads of the oldest answer that was not read yet, and all of it
that has come if no wait was given up before. -/
structure OfOldest (n : Network) (answer : Nat → Nat → List UInt8) (t : Tally)
    (lines : List String) (i : Nat) (bytes : List UInt8) : Prop where
  part : bytes <:+: answer i t.heard
  whole : t.torn = 0 → bytes <+: answer i t.heard
  own : t.torn = 0 → lines.length = t.heard + 1 → n.linesOf i = lines

/-- A line that is read, with its end, is the rest of the oldest answer that was not read. -/
theorem ofOldest_of_line {i : Nat} {lost front r : List UInt8} (hn : n.AnswersInTurn answer)
    (hk : n.linesOf i <+: lines)
    (hs : n.sentFor i (n.linesOf i).length =
      answers answer i t.heard ++ (lost ++ (front ++ newlineByte :: r)))
    (hl : newlineByte ∉ lost) (hf : newlineByte ∉ front) (hwhole : t.torn = 0 → lost = []) :
    lost ++ (front ++ [newlineByte]) = answer i t.heard ∧
      n.OfOldest answer t lines i (front ++ [newlineByte]) := by
  have hne : lost ++ (front ++ newlineByte :: r) ≠ [] := by simp
  obtain ⟨body, later, hbody, hline, hprefix⟩ := hn.exists_next hs hne
  rw [← List.append_assoc] at hprefix
  have hwas : lost ++ front = body := eq_of_isPrefix_line (by simp [hl, hf]) hbody hprefix
  have hanswer : lost ++ (front ++ [newlineByte]) = answer i t.heard := by
    rw [hline, ← hwas, List.append_assoc]
  refine ⟨hanswer, ⟨lost, [], by rw [List.append_nil, hanswer]⟩, fun h0 => ?_,
    fun h0 => hn.linesOf_eq hs hne hk⟩
  rw [← hanswer, hwhole h0]
  exact List.prefix_refl _

/-- What is read before the end of all is a part of the oldest answer that was not read. -/
theorem ofOldest_of_end {i : Nat} {lost bytes : List UInt8} (hn : n.AnswersInTurn answer)
    (hk : n.linesOf i <+: lines)
    (hs : n.sentFor i (n.linesOf i).length = answers answer i t.heard ++ (lost ++ bytes))
    (hl : newlineByte ∉ lost) (hf : newlineByte ∉ bytes) (hwhole : t.torn = 0 → lost = [])
    (hne : bytes ≠ []) : n.OfOldest answer t lines i bytes := by
  have hne' : lost ++ bytes ≠ [] := fun h => hne (List.append_eq_nil_iff.1 h).2
  obtain ⟨body, later, hbody, hline, hprefix⟩ := hn.exists_next hs hne'
  have hpart : lost ++ bytes <+: answer i t.heard := by
    rw [hline]
    exact (isPrefix_of_isPrefix_line (by simp [hl, hf]) hprefix).trans (List.prefix_append _ _)
  refine ⟨?_, fun h0 => ?_, fun h0 => hn.linesOf_eq hs hne' hk⟩
  · obtain ⟨after, h⟩ := hpart
    exact ⟨lost, after, h⟩
  · rw [hwhole h0] at hpart
    exact hpart

/-- A line that is read is a part of the oldest answer that was not read, and the whole beginning of
it if no wait was given up before. -/
theorem Stands.hear {rest : Connection} {bytes : List UInt8} (h : n.Stands answer t lines c)
    (hn : n.AnswersInTurn answer) (hr : c.readLine = .line bytes rest) (hne : bytes ≠ []) :
    n.Stands answer ⟨t.heard + 1, t.torn⟩ lines rest ∧ rest.index = c.index ∧
      ∀ i, c.index = some i → n.OfOldest answer t lines i bytes := by
  have hsplit := List.takeWhile_append_dropWhile (p := (· ≠ newlineByte)) (l := c.incoming)
  have hfront : newlineByte ∉ c.incoming.takeWhile (· ≠ newlineByte) := fun hm => by
    simpa using List.all_eq_true.1 List.all_takeWhile _ hm
  unfold Connection.readLine at hr
  dsimp only at hr
  split at hr
  · next b r hd =>
    obtain ⟨rfl, rfl⟩ := Connection.LineRead.line.inj hr
    obtain rfl : b = newlineByte := by
      have hhead := List.head?_dropWhile_not (fun x => decide (x ≠ newlineByte)) c.incoming
      rw [hd] at hhead
      simpa using hhead
    rw [hd] at hsplit
    cases h with
    | target hi => exact ⟨.target hi, rfl, fun i hidx => by cases hi.symm.trans hidx⟩
    | spent hin _ => simp [hin] at hsplit
    | @server i lost hi hlt ht hk hw hs hl hwhole =>
      rw [← hsplit] at hs
      obtain ⟨hanswer, hread⟩ := ofOldest_of_line hn hk hs hl hfront hwhole
      refine ⟨.server [] hi hlt ht hk hw ?_ (by simp) fun _ => rfl, rfl, fun j hidx => ?_⟩
      · rw [hs, answers_succ, ← hanswer]
        simp
      · obtain rfl : i = j := Option.some.inj (hi.symm.trans hidx)
        exact hread
  · next hd =>
    rw [hd, List.append_nil] at hsplit
    rw [hsplit] at hfront hr
    split at hr
    · cases hr
    · next htail =>
      obtain ⟨rfl, rfl⟩ := Connection.LineRead.line.inj hr
      refine ⟨.spent rfl (by simp [htail]), rfl, fun i hidx => ?_⟩
      cases h with
      | target hi => cases hi.symm.trans hidx
      | spent hin _ => exact absurd hin hne
      | @server j lost hi hlt ht hk hw hs hl hwhole =>
        obtain rfl : j = i := Option.some.inj (hi.symm.trans hidx)
        exact ofOldest_of_end hn hk hs hl hfront hwhole hne
    · cases hr

/-- A wait that is given up loses what has come of the line. -/
theorem Stands.tear (h : n.Stands answer t lines c) (hr : c.readLine = .hanging) :
    n.Stands answer ⟨t.heard, t.torn + 1⟩ lines { c with incoming := [] } := by
  have hsplit := List.takeWhile_append_dropWhile (p := (· ≠ newlineByte)) (l := c.incoming)
  have hfront : newlineByte ∉ c.incoming.takeWhile (· ≠ newlineByte) := fun hm => by
    simpa using List.all_eq_true.1 List.all_takeWhile _ hm
  unfold Connection.readLine at hr
  dsimp only at hr
  split at hr
  · cases hr
  · next hd =>
    rw [hd, List.append_nil] at hsplit
    rw [hsplit] at hfront
    cases h with
    | spent hin ht => exact .spent rfl ht
    | target hi => exact .target hi
    | @server i lost hi hlt ht hk hw hs hl hwhole =>
      refine .server (lost ++ c.incoming) hi hlt ht hk hw ?_ ?_ nofun
      · rw [hs, List.append_nil]
      · simp [hl, hfront]

end Network
end LinkTest
