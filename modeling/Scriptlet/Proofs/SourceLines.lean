import Mathlib.Data.List.DropRight
import Scriptlet.Diagnostic.Basic

namespace Scriptlet

namespace Bytes

variable {line : List Char}

@[simp] theorem length_nil : length [] = 0 :=
  rfl

@[simp] theorem length_cons (c : Char) (cs : List Char) :
    length (c :: cs) = c.utf8Size + length cs :=
  rfl

theorem length_eq_utf8ByteSize (cs : List Char) : length cs = (String.ofList cs).utf8ByteSize := by
  induction cs with
  | nil => rfl
  | cons c cs ih =>
      have hcons : String.ofList (c :: cs) = String.singleton c ++ String.ofList cs := by
        rw [String.singleton_eq_ofList, ← String.ofList_append]
        rfl
      rw [hcons, String.utf8ByteSize_append, String.utf8ByteSize_singleton, length_cons, ih]

@[simp] theorem length_append (cs ds : List Char) : length (cs ++ ds) = length cs + length ds := by
  simp only [length_eq_utf8ByteSize, String.ofList_append, String.utf8ByteSize_append]

theorem isValid_length {s : String} {cs ds : List Char} (h : s.toList = cs ++ ds) :
    String.Pos.Raw.IsValid s ⟨length cs⟩ := by
  rw [String.Pos.Raw.isValid_iff_exists_append]
  refine ⟨String.ofList cs, String.ofList ds, ?_, ?_⟩
  · rw [← String.ofList_append, ← h, String.ofList_toList]
  · rw [String.rawEndPos, length_eq_utf8ByteSize]

theorem drop?_cons (c : Char) (n : Nat) (cs : List Char) :
    drop? (c.utf8Size + n) (c :: cs) = drop? n cs := by
  have hpos := c.utf8Size_pos
  obtain ⟨k, hk⟩ : ∃ k, c.utf8Size + n = k + 1 := ⟨c.utf8Size + n - 1, by omega⟩
  rw [hk, drop?, if_pos (by omega), ← hk, Nat.add_sub_cancel_left]

theorem take?_cons (c : Char) (n : Nat) (cs : List Char) :
    take? (c.utf8Size + n) (c :: cs) = (take? n cs).map (c :: ·) := by
  have hpos := c.utf8Size_pos
  obtain ⟨k, hk⟩ : ∃ k, c.utf8Size + n = k + 1 := ⟨c.utf8Size + n - 1, by omega⟩
  rw [hk, take?, if_pos (by omega), ← hk, Nat.add_sub_cancel_left]

theorem drop?_length (cs ds : List Char) : drop? (length cs) (cs ++ ds) = some ds := by
  induction cs with
  | nil => simp [drop?]
  | cons c cs ih => rw [length_cons, List.cons_append, drop?_cons, ih]

theorem take?_length (cs ds : List Char) : take? (length cs) (cs ++ ds) = some cs := by
  induction cs with
  | nil => simp [take?]
  | cons c cs ih => rw [length_cons, List.cons_append, take?_cons, ih, Option.map_some]

theorem slice?_length (before line after : List Char) :
    slice? (length before) (length (before ++ line)) (before ++ line ++ after) = some line := by
  have hwidth : length (before ++ line) - length before = length line := by
    rw [length_append, Nat.add_sub_cancel_left]
  rw [slice?, if_pos (by simp), List.append_assoc, drop?_length, Option.bind_some, hwidth,
    take?_length]

theorem afterNewlines_of_not_mem (offset : Nat) (h : '\n' ∉ line) :
    afterNewlines offset line = [] := by
  induction line generalizing offset with
  | nil => rfl
  | cons c line ih =>
      rw [List.mem_cons, not_or] at h
      rw [afterNewlines, if_neg (Ne.symm h.1)]
      exact ih _ h.2

theorem afterNewlines_append (offset : Nat) (h : '\n' ∉ line) (rest : List Char) :
    afterNewlines offset (line ++ '\n' :: rest) =
      (offset + length line + 1) :: afterNewlines (offset + length line + 1) rest := by
  induction line generalizing offset with
  | nil => rfl
  | cons c line ih =>
      rw [List.mem_cons, not_or] at h
      rw [List.cons_append, afterNewlines, if_neg (Ne.symm h.1)]
      simp only [ih _ h.2, length_cons, Nat.add_assoc]

theorem lines_induction {P : List Char → Prop} (last : ∀ line, '\n' ∉ line → P line)
    (more : ∀ line rest, '\n' ∉ line → P rest → P (line ++ '\n' :: rest)) (text : List Char) :
    P text := by
  induction hn : text.length using Nat.strongRecOn generalizing text with
  | ind n ih =>
      by_cases h : '\n' ∈ text
      · obtain ⟨line, rest, rfl, hline⟩ := List.eq_append_cons_of_mem h
        have hshorter : rest.length < n := by
          rw [← hn, List.length_append, List.length_cons]
          omega
        exact more line rest hline (ih _ hshorter rest rfl)
      · exact last text h

theorem length_splitOn (text : List Char) :
    (text.splitOn '\n').length = 1 + text.count '\n' := by
  induction text using lines_induction with
  | last line h => rw [List.splitOn_eq_singleton h, List.count_eq_zero.mpr h]; rfl
  | more line rest h ih =>
      rw [List.splitOn_append_cons_self_of_not_mem h, List.length_cons, ih, List.count_append,
        List.count_eq_zero.mpr h, List.count_cons_self]
      omega

theorem length_afterNewlines (offset : Nat) (text : List Char) :
    (afterNewlines offset text).length = text.count '\n' := by
  induction text using lines_induction generalizing offset with
  | last line h => rw [afterNewlines_of_not_mem offset h, List.count_eq_zero.mpr h]; rfl
  | more line rest h ih =>
      rw [afterNewlines_append offset h, List.length_cons, ih, List.count_append,
        List.count_eq_zero.mpr h, List.count_cons_self, Nat.zero_add]

theorem exists_of_getElem?_splitOn {text line : List Char} {k : Nat} (offset : Nat)
    (h : (text.splitOn '\n')[k]? = some line) :
    ∃ before after, text = before ++ line ++ after ∧
      (offset :: afterNewlines offset text)[k]? = some (offset + length before) ∧
      (afterNewlines offset text)[k]? =
        if after = [] then none else some (offset + length (before ++ line) + 1) := by
  induction text using lines_induction generalizing offset k with
  | last first hfirst =>
      rw [List.splitOn_eq_singleton hfirst] at h
      obtain ⟨rfl, rfl⟩ : k = 0 ∧ first = line := by
        cases k with
        | zero => exact ⟨rfl, by simpa using h⟩
        | succ k => simp at h
      exact ⟨[], [], by simp, rfl, by simp [afterNewlines_of_not_mem offset hfirst]⟩
  | more first rest hfirst ih =>
      rw [List.splitOn_append_cons_self_of_not_mem hfirst] at h
      rw [afterNewlines_append offset hfirst]
      cases k with
      | zero =>
          obtain rfl : first = line := by simpa using h
          exact ⟨[], '\n' :: rest, by simp, rfl, by simp⟩
      | succ k =>
          obtain ⟨before, after, rfl, hstart, hstop⟩ :=
            ih (offset + length first + 1) (by simpa using h)
          have hshift (cs : List Char) : offset + length (first ++ '\n' :: cs) =
              offset + length first + 1 + length cs := by
            have hnewline : '\n'.utf8Size = 1 := rfl
            rw [length_append, length_cons, hnewline]
            omega
          refine ⟨first ++ '\n' :: before, after, by simp, ?_, ?_⟩
          · rw [List.getElem?_cons_succ, hstart, hshift]
          · rw [List.getElem?_cons_succ, hstop, List.append_assoc, List.cons_append, hshift]

end Bytes

namespace Source

/-- Where the line ends whose start stands at the given place of the table. -/
def lineStop (s : Source) (index : Nat) : Nat :=
  match s.lineStarts[index + 1]? with
  | some next => next - 1
  | none => Bytes.length s.text.toList

theorem length_lineStarts (s : Source) : s.lineStarts.length = 1 + s.text.toList.count '\n' := by
  rw [lineStarts, List.length_cons, Bytes.length_afterNewlines, Nat.add_comm]

theorem exists_of_getElem?_lineStarts {s : Source} {k start : Nat}
    (h : s.lineStarts[k]? = some start) :
    ∃ before line after, s.text.toList = before ++ line ++ after ∧
      (s.text.toList.splitOn '\n')[k]? = some line ∧ start = Bytes.length before ∧
      s.lineStop k = Bytes.length (before ++ line) := by
  have hk : k < (s.text.toList.splitOn '\n').length := by
    rw [Bytes.length_splitOn, ← length_lineStarts]
    exact (List.getElem?_eq_some_iff.mp h).1
  have hline := List.getElem?_eq_getElem hk
  obtain ⟨before, after, htext, hstart, hstop⟩ := Bytes.exists_of_getElem?_splitOn 0 hline
  refine ⟨before, _, after, htext, hline, ?_, ?_⟩
  · rw [lineStarts, hstart, Nat.zero_add] at h
    exact (Option.some.inj h).symm
  · have hnext : s.lineStarts[k + 1]? = _ := hstop
    rw [lineStop, hnext]
    by_cases hafter : after = []
    · rw [hafter, List.append_nil] at htext
      rw [if_pos hafter, ← htext]
    · rw [if_neg hafter, Nat.zero_add]
      rfl

theorem line?_eq (s : Source) (n : UInt32) :
    s.line? n = if n = 0 then none else
      ((s.text.toList.splitOn '\n')[n.toNat - 1]?).map fun line =>
        String.ofList (line.rdropWhile (· = '\r')) := by
  unfold line?
  dsimp only
  split
  · rfl
  · cases hstart : s.lineStarts[n.toNat - 1]? with
    | none =>
        have hend : (s.text.toList.splitOn '\n')[n.toNat - 1]? = none := by
          rw [List.getElem?_eq_none_iff, Bytes.length_splitOn, ← length_lineStarts]
          exact List.getElem?_eq_none_iff.mp hstart
        rw [hend]
        rfl
    | some start =>
        obtain ⟨before, line, after, htext, hline, rfl, hstop⟩ :=
          exists_of_getElem?_lineStarts hstart
        have hslice : Bytes.slice? (Bytes.length before) (s.lineStop (n.toNat - 1))
            s.text.toList = some line := by
          rw [hstop, htext]
          exact Bytes.slice?_length before line after
        rw [hline]
        exact congrArg (Option.map _) hslice

theorem isSome_line?_iff (s : Source) (n : UInt32) :
    (s.line? n).isSome ↔ 1 ≤ n.toNat ∧ n.toNat ≤ s.lineCount := by
  have hzero : n = 0 ↔ n.toNat = 0 := UInt32.toNat_inj.symm
  rw [line?_eq, lineCount, length_lineStarts, ← Bytes.length_splitOn]
  split
  · next h =>
      rw [hzero] at h
      simp [h]
  · next h =>
      rw [hzero] at h
      rw [Option.isSome_map, isSome_getElem?]
      omega

end Source

/-- A text has one line more than it has newlines. The line with a given number is there exactly if
the number is at least one and at most that many, and it is the piece with that number among those
between newlines, without the carriage returns at its end. The two offsets between which a line is
cut out are in order, and both lie within the text and between two of its characters, so there is
always something to cut out. A diagnostic that gets a source quotes the line on which its span
starts, if there is one, and differs in nothing else but the file. -/
theorem lines_are_those_between_newlines (s : Source) (n : UInt32) (d : Diagnostic) :
    let pieces := s.text.toList.splitOn '\n'
    s.lineCount = 1 + s.text.toList.count '\n' ∧
    ((s.line? n).isSome ↔ 1 ≤ n.toNat ∧ n.toNat ≤ s.lineCount) ∧
    (∀ line, s.line? n = some line ↔ n ≠ 0 ∧ ∃ piece, pieces[n.toNat - 1]? = some piece ∧
      line = String.ofList (piece.rdropWhile (· = '\r'))) ∧
    (∀ k start, s.lineStarts[k]? = some start →
      start ≤ s.lineStop k ∧ s.lineStop k ≤ s.text.utf8ByteSize ∧
      String.Pos.Raw.IsValid s.text ⟨start⟩ ∧ String.Pos.Raw.IsValid s.text ⟨s.lineStop k⟩ ∧
      Bytes.slice? start (s.lineStop k) s.text.toList = pieces[k]? ∧ pieces[k]?.isSome) ∧
    d.withSource s = { d with
      file := s.name
      sourceLine := (s.line? d.span.start.line).getD "" } := by
  intro pieces
  refine ⟨s.length_lineStarts, s.isSome_line?_iff n, fun line => ?_, fun k start hstart => ?_, rfl⟩
  · rw [s.line?_eq]
    split
    · next hn => simp [hn]
    · next hn =>
        rw [Option.map_eq_some_iff]
        simp only [ne_eq, hn, not_false_eq_true, true_and, eq_comm (a := line)]
        rfl
  · obtain ⟨before, line, after, htext, hline, rfl, hstop⟩ :=
      Source.exists_of_getElem?_lineStarts hstart
    have hall : s.text.utf8ByteSize = Bytes.length (before ++ line ++ after) := by
      rw [← htext, Bytes.length_eq_utf8ByteSize, String.ofList_toList]
    have hfrom : s.text.toList = before ++ (line ++ after) := by
      rw [htext, List.append_assoc]
    rw [hstop, hall]
    refine ⟨by simp, by simp, Bytes.isValid_length hfrom, Bytes.isValid_length htext, ?_, ?_⟩
    · rw [hline, htext]
      exact Bytes.slice?_length before line after
    · rw [hline]
      rfl

/-- The first line ends with two carriage returns and a newline, the second is empty, and the third,
without a newline after it, has characters of two and of four bytes. -/
theorem lines_are_those_between_newlines_wide_characters :
    let s : Source := ⟨"main.sf", "a\r\r\n\né😀"⟩
    let d := Diagnostic.ofCode "" .undefinedVariable "m" (.point 3 1)
    s.lineCount = 3 ∧ s.line? 0 = none ∧ s.line? 1 = some "a" ∧ s.line? 2 = some "" ∧
      s.line? 3 = some "é😀" ∧ s.line? 4 = none ∧
      s.lineStarts[2]? = some 5 ∧ String.Pos.Raw.IsValid s.text ⟨5⟩ ∧
      s.lineStop 2 = 11 ∧ String.Pos.Raw.IsValid s.text ⟨11⟩ ∧
      (d.withSource s).sourceLine = "é😀" := by
  intro s d
  have hstart : s.lineStarts[2]? = some 5 := by decide +kernel
  have hstop : s.lineStop 2 = 11 := by decide +kernel
  have hthird : s.line? 3 = some "é😀" := by decide +kernel
  obtain ⟨hcount, hsome, -, hcut, hquote⟩ := lines_are_those_between_newlines s 4 d
  obtain ⟨-, -, hfirst, hlast, -⟩ := hcut 2 5 hstart
  have hlines : s.lineCount = 3 := hcount.trans (by decide +kernel)
  have hfourth : s.line? 4 = none := by
    rw [← Option.not_isSome_iff_eq_none, hsome, hlines]
    decide
  rw [hstop] at hlast
  refine ⟨hlines, rfl, by decide +kernel, by decide +kernel, hthird, hfourth, hstart, hfirst, hstop,
    hlast, ?_⟩
  rw [hquote]
  exact congrArg (Option.getD · "") hthird

end Scriptlet
