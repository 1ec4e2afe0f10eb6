import Mathlib.Data.List.Forall2
import Mathlib.Data.List.TakeWhile
import Scriptlet.Proofs.JsonNumbers
import Scriptlet.Proofs.JsonStrings

namespace Scriptlet.Json

open Reader

def Blank (cs : List Char) : Prop :=
  ∀ c ∈ cs, c = ' ' ∨ c = '\t' ∨ c = '\n' ∨ c = '\r'

def marks : List Char :=
  ['[', ']', '\x7b', '\x7d', ':', ',']

inductive Token where
  | mark (c : Char) (h : c ∈ marks := by decide)
  | null
  | bool (b : Bool)
  | number (n : Numeral)
  | string (s : Option String)

inductive Token.Spells : Token → List Char → Prop
  | mark {c : Char} (h : c ∈ marks) : Spells (.mark c h) [c]
  | null : Spells .null ['n', 'u', 'l', 'l']
  | bool (b : Bool) :
      Spells (.bool b) (if b then ['t', 'r', 'u', 'e'] else ['f', 'a', 'l', 's', 'e'])
  | number {n : Numeral} {cs : List Char} (h : Figures n cs) : Spells (.number n) cs
  | string {s : Option String} {cs : List Char} (h : Quotes s cs) : Spells (.string s) cs

mutual

def tokens : Json → List Token
  | .null => [.null]
  | .bool b => [.bool b]
  | .number n => [.number n]
  | .string s => [.string s]
  | .array [] => [.mark '[', .mark ']']
  | .array (j :: js) => .mark '[' :: (tokens j ++ tokensBehindItem js)
  | .object [] => [.mark '\x7b', .mark '\x7d']
  | .object ((key, j) :: ms) =>
    .mark '\x7b' :: .string key :: .mark ':' :: (tokens j ++ tokensBehindMember ms)

def tokensBehindItem : List Json → List Token
  | [] => [.mark ']']
  | j :: js => .mark ',' :: (tokens j ++ tokensBehindItem js)

def tokensBehindMember : List (Option String × Json) → List Token
  | [] => [.mark '\x7d']
  | (key, j) :: ms => .mark ',' :: .string key :: .mark ':' :: (tokens j ++ tokensBehindMember ms)

end

/-- A text made up of words with white space around them. -/
def Spaced : List (List Char) → List Char → Prop
  | [], cs => Blank cs
  | word :: words, cs =>
    ∃ blank rest, Blank blank ∧ Spaced words rest ∧ cs = blank ++ (word ++ rest)

def IsText (j : Json) (cs : List Char) : Prop :=
  ∃ words, List.Forall₂ Token.Spells j.tokens words ∧ Spaced words cs

def Solid (word : List Char) : Prop :=
  ∃ c cs, word = c :: cs ∧ isSpace c = false

variable {ts us : List Token} {t : Token} {cs mid rest word : List Char}

theorem isSpace_iff {c : Char} : isSpace c = true ↔ c = ' ' ∨ c = '\t' ∨ c = '\n' ∨ c = '\r' := by
  simp [isSpace, or_assoc]

theorem exists_blank_append_skip (cs : List Char) :
    ∃ blank, Blank blank ∧ cs = blank ++ skip cs := by
  refine ⟨cs.takeWhile isSpace, fun c hc => ?_, List.takeWhile_append_dropWhile.symm⟩
  exact isSpace_iff.mp (List.all_eq_true.mp List.all_takeWhile c hc)

theorem skip_eq_nil_iff : skip cs = [] ↔ Blank cs := by
  simp only [skip, List.dropWhile_eq_nil_iff, isSpace_iff, Blank]

theorem skip_append {blank : List Char} (hblank : Blank blank) (hword : Solid word) :
    skip (blank ++ (word ++ rest)) = word ++ rest := by
  obtain ⟨c, cs, rfl, hc⟩ := hword
  rw [skip, List.dropWhile_append_of_pos fun d hd => isSpace_iff.mpr (hblank d hd),
    List.cons_append, List.dropWhile_cons_of_neg (by simp [hc])]

theorem spaced_cons_iff (hword : Solid word) {words : List (List Char)} :
    Spaced (word :: words) cs ↔ ∃ rest, skip cs = word ++ rest ∧ Spaced words rest := by
  constructor
  · rintro ⟨blank, rest, hblank, hrest, rfl⟩
    exact ⟨rest, skip_append hblank hword, hrest⟩
  · rintro ⟨rest, hskip, hrest⟩
    obtain ⟨blank, hblank, hcs⟩ := exists_blank_append_skip cs
    exact ⟨blank, rest, hblank, hrest, hskip ▸ hcs⟩

theorem Ends.of_skip (h : Ends (skip cs)) : Ends cs := by
  cases cs with
  | nil => exact h
  | cons c cs =>
      cases hc : isSpace c with
      | true =>
          rintro d ⟨⟩
          rcases isSpace_iff.mp hc with rfl | rfl | rfl | rfl <;> decide
      | false => rwa [skip, List.dropWhile_cons_of_neg (by simp [hc])] at h

theorem Token.spells_mark_iff {c : Char} {hc : c ∈ marks} :
    Token.Spells (.mark c hc) word ↔ word = [c] := by
  constructor
  · rintro ⟨⟩
    rfl
  · rintro rfl
    exact .mark hc

theorem Token.spells_number_iff {n : Numeral} : Token.Spells (.number n) word ↔ Figures n word := by
  constructor
  · rintro ⟨⟩
    assumption
  · exact .number

theorem Token.spells_string_iff {s : Option String} :
    Token.Spells (.string s) word ↔ Quotes s word := by
  constructor
  · rintro ⟨⟩
    assumption
  · exact .string

theorem Token.Spells.solid (h : t.Spells word) : Solid word := by
  cases h with
  | mark hc =>
      have hmarks : ∀ c ∈ marks, isSpace c = false := by simp [marks, isSpace]
      exact ⟨_, _, rfl, hmarks _ hc⟩
  | null => exact ⟨_, _, rfl, rfl⟩
  | bool b => cases b <;> exact ⟨_, _, rfl, rfl⟩
  | number h =>
      obtain ⟨c, cs, rfl, hc⟩ := h.exists_cons
      refine ⟨c, cs, rfl, ?_⟩
      rw [← Bool.not_eq_true, isSpace_iff]
      rintro (rfl | rfl | rfl | rfl) <;> simp at hc
  | string h =>
      obtain ⟨body, rfl, -⟩ := string_of_quotes h
      exact ⟨_, _, rfl, rfl⟩

/-- A text that begins with tokens, and what is left of it. -/
def Reads : List Token → List Char → List Char → Prop
  | [], cs, rest => cs = rest
  | t :: ts, cs, rest => ∃ word mid, t.Spells word ∧ skip cs = word ++ mid ∧ Reads ts mid rest

theorem reads_append :
    Reads (ts ++ us) cs rest ↔ ∃ mid, Reads ts cs mid ∧ Reads us mid rest := by
  induction ts generalizing cs with
  | nil => simp [Reads]
  | cons t ts ih =>
      simp only [List.cons_append, Reads, ih]
      constructor
      · rintro ⟨word, cs', hword, hskip, mid, hts, hus⟩
        exact ⟨mid, ⟨word, cs', hword, hskip, hts⟩, hus⟩
      · rintro ⟨mid, ⟨word, cs', hword, hskip, hts⟩, hus⟩
        exact ⟨word, cs', hword, hskip, mid, hts, hus⟩

/-- A text made up of tokens begins with them and has nothing but white space behind them. -/
theorem spaced_iff_reads :
    (∃ words, List.Forall₂ Token.Spells ts words ∧ Spaced words cs) ↔
      ∃ rest, Reads ts cs rest ∧ skip rest = [] := by
  induction ts generalizing cs with
  | nil => simp [Reads, Spaced, skip_eq_nil_iff]
  | cons t ts ih =>
      constructor
      · rintro ⟨_, hwords, hcs⟩
        obtain ⟨word, words, hword, htail, rfl⟩ := List.forall₂_cons_left_iff.mp hwords
        obtain ⟨mid, hskip, hmid⟩ := (spaced_cons_iff hword.solid).mp hcs
        obtain ⟨rest, h, hrest⟩ := ih.mp ⟨words, htail, hmid⟩
        exact ⟨rest, ⟨word, mid, hword, hskip, h⟩, hrest⟩
      · rintro ⟨rest, ⟨word, mid, hword, hskip, h⟩, hrest⟩
        obtain ⟨words, hwords, hmid⟩ := ih.mpr ⟨rest, h, hrest⟩
        exact ⟨word :: words, .cons hword hwords,
          (spaced_cons_iff hword.solid).mpr ⟨mid, hskip, hmid⟩⟩

theorem Reads.length_le (h : Reads ts cs rest) : ts.length + rest.length ≤ cs.length := by
  induction ts generalizing cs with
  | nil => simp [show cs = rest from h]
  | cons t ts ih =>
      obtain ⟨word, mid, hword, hskip, h⟩ := h
      obtain ⟨c, word, rfl, -⟩ := hword.solid
      obtain ⟨blank, -, hcs⟩ := exists_blank_append_skip cs
      have hlength := congrArg List.length (hskip ▸ hcs)
      have hts := ih h
      simp only [List.length_append, List.length_cons] at hlength ⊢
      omega

theorem Reads.ends_of_mark {c : Char} {hc : c ∈ marks} (h : Reads (.mark c hc :: ts) cs rest) :
    Ends cs := by
  obtain ⟨_, mid, ⟨-⟩, hskip, -⟩ := h
  refine .of_skip ?_
  rw [hskip]
  rintro d ⟨⟩
  have hmarks : ∀ c ∈ marks, c.isDigit = false ∧ c ≠ '.' ∧ c ≠ 'e' ∧ c ≠ 'E' := by simp [marks]
  exact hmarks c hc

theorem reads_mark_cons_iff {c : Char} {hc : c ∈ marks} :
    Reads (.mark c hc :: ts) cs rest ↔ ∃ mid, skip cs = c :: mid ∧ Reads ts mid rest := by
  simp [Reads, Token.spells_mark_iff]

theorem reads_string_cons_iff {s : Option String} :
    Reads (.string s :: ts) cs rest ↔
      ∃ body mid, skip cs = '"' :: body ∧ Reader.string body = some (s, mid) ∧
        Reads ts mid rest := by
  constructor
  · rintro ⟨text, mid, hword, hskip, hmid⟩
    obtain ⟨body, rfl, hbody⟩ := string_of_quotes (Token.spells_string_iff.mp hword)
    exact ⟨body ++ mid, mid, hskip, hbody mid, hmid⟩
  · rintro ⟨body, mid, hskip, hbody, hmid⟩
    obtain ⟨text, htext, hquotes⟩ := quotes_of_string hbody
    exact ⟨text, mid, .string hquotes, hskip.trans htext, hmid⟩

theorem Token.Spells.eq_mark_of_bracket (h : t.Spells (']' :: cs)) : t = .mark ']' := by
  generalize hword : ']' :: cs = word at h
  cases h with
  | mark hc =>
      cases hword
      rfl
  | null => cases hword
  | bool b => cases b <;> cases hword
  | number h =>
      obtain ⟨c, cs', rfl, hc⟩ := h.exists_cons
      cases hword
      simp at hc
  | string h =>
      obtain ⟨body, rfl, -⟩ := string_of_quotes h
      cases hword

theorem exists_tokens_eq_cons (j : Json) : ∃ t ts, j.tokens = t :: ts ∧ t ≠ .mark ']' := by
  cases j with
  | null => exact ⟨_, _, rfl, nofun⟩
  | bool b => exact ⟨_, _, rfl, nofun⟩
  | number n => exact ⟨_, _, rfl, nofun⟩
  | string s => exact ⟨_, _, rfl, nofun⟩
  | array js => cases js <;> exact ⟨_, _, rfl, by simp⟩
  | object ms => cases ms <;> exact ⟨_, _, rfl, by simp⟩

theorem Reads.skip_ne_bracket {j : Json} (h : Reads (j.tokens ++ us) cs rest) :
    skip cs ≠ ']' :: mid := by
  obtain ⟨t, ts, hj, ht⟩ := exists_tokens_eq_cons j
  rw [hj] at h
  obtain ⟨word, mid', hword, hskip, -⟩ := h
  obtain ⟨c, word, rfl, -⟩ := hword.solid
  intro hbracket
  obtain ⟨rfl, -⟩ := List.cons.inj (hskip.symm.trans hbracket)
  exact ht hword.eq_mark_of_bracket

end Scriptlet.Json
