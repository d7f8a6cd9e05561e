/-
  LineBasic.Proofs.Stmt.LetterCase

  Statements that differ in the case of letters only are the same statement, unless the letters are
  quoted. They are of one kind and read alike; a mistake is reported at the same column and in the
  same words, but for the statement that the report quotes.

  Case is ignored where keywords are told apart, where words inside a sentence are found, in names
  and in the power of a numeral, and again in what is left when a text is cut. A line number that is
  too long is no exception, but it is no misread statement either: it is refused in both cases
  alike, and not as a mistake in reading.
-/
import LineBasic.Proofs.Reader.LetterCase
import LineBasic.Proofs.Stmt.RoundTrip
import LineBasic.Proofs.Stmt.Target

namespace LineBasic

open Grammar

/-- The texts differ in the case of letters only. The letters are those of ASCII: others have no
    capital here. -/
def SameLetters (text text' : List Char) : Prop :=
  text.map Char.toUpper = text'.map Char.toUpper

instance (text text' : List Char) : Decidable (SameLetters text text') :=
  inferInstanceAs (Decidable (text.map Char.toUpper = text'.map Char.toUpper))

/-! ## Kinds -/

theorem Kind.mayFollow_map_toUpper (kind : Kind) (rest : List Char) :
    kind.mayFollow (rest.map Char.toUpper) = kind.mayFollow rest := by
  have hspace := apply_toUpper (· == ' ') (by decide)
  have hbreak := apply_toUpper (· == '\n') (by decide)
  cases rest with
  | nil => rfl
  | cons c rest =>
      have hline : (c.toUpper :: rest.map Char.toUpper == ['\n']) = (c :: rest == ['\n']) := by
        cases rest with
        | nil => exact congrArg (· && true) (hbreak c)
        | cons d rest => simp
      have hhead : (some c.toUpper == some ' ') = (some c == some ' ') := hspace c
      cases kind <;>
        simp only [mayFollow, List.map_cons, hline, hhead, List.isEmpty_cons, List.head?_cons,
          Option.any_some, isBlank_toUpper]

theorem Kind.ofText_map_toUpper (text : List Char) :
    ofText (text.map Char.toUpper) = ofText text := by
  have hopens (kind : Kind) : kind.opens (text.map Char.toUpper) = kind.opens text := by
    rw [opens, afterWord?_map_toUpper kind.keyword_capitals, Option.any_map, opens]
    exact congrArg (Option.any · _) (funext kind.mayFollow_map_toUpper)
  simp only [ofText, hopens]

theorem Text.trim_map_toUpper (text : List Char) :
    trim (text.map Char.toUpper) = (trim text).map Char.toUpper := by
  simp only [trim, trimEnd, dropWhile_map_toUpper isBlank_toUpper, ← List.map_reverse]

namespace SameLetters

variable {text text' : List Char}

theorem ofText (h : SameLetters text text') : Kind.ofText text = Kind.ofText text' := by
  rw [← Kind.ofText_map_toUpper, h, Kind.ofText_map_toUpper]

theorem trim (h : SameLetters text text') : SameLetters (Text.trim text) (Text.trim text') := by
  rw [SameLetters, ← Text.trim_map_toUpper, h, Text.trim_map_toUpper]

theorem take (h : SameLetters text text') (n : Nat) :
    SameLetters (text.take n) (text'.take n) := by
  rw [SameLetters, List.map_take, h, List.map_take]

end SameLetters

/-! ## Texts without quotes -/

/-- No quote stands in the text. -/
def Unquoted (text : List Char) : Prop :=
  ∀ mark ∈ ['"', '\''], mark ∉ text

instance (text : List Char) : Decidable (Unquoted text) :=
  List.decidableBAll (fun mark => mark ∉ text) ['"', '\'']

namespace Unquoted

variable {text text' : List Char}

theorem mono (h : Unquoted text) (hsubset : text' ⊆ text) : Unquoted text' :=
  fun mark hmark hmem => h mark hmark (hsubset hmem)

theorem of_sameLetters (h : Unquoted text) (hcase : SameLetters text text') : Unquoted text' := by
  intro mark hmark hmem
  have hsubset : ['"', '\''] ⊆ marks := by decide
  have hupper : mark ∈ text.map Char.toUpper := by
    rw [hcase]
    exact List.mem_map.mpr ⟨mark, hmem, toUpper_of_mem_marks (hsubset hmark)⟩
  obtain ⟨c, hc, heq⟩ := List.mem_map.mp hupper
  rw [(toUpper_eq_mark_iff (hsubset hmark) c).mp heq] at hc
  exact h mark hmark hc

/-- A sentence that is quoted text begins its text with a quote. -/
theorem ne_printText (h : Unquoted text) {kind : Kind} {s : Sentence}
    (hread : Sentence.read kind text = .ok s) (content : List Char) : s ≠ .printText content := by
  rintro rfl
  obtain ⟨xs, hspells, hderives⟩ := derives_of_read hread
  cases hderives with
  | @printText w x hw hx =>
      obtain ⟨mark, more, hmark, hchars⟩ := mark_of_string (hspells.all_match x (by simp)) hx
      have hmem : mark ∈ text :=
        (hspells.infix_of_mem (x := x) (by simp)).subset (by simp [hchars])
      exact h mark (by simpa using hmark) hmem

end Unquoted

/-! ## Parsing -/

theorem Sentence.read_map_toUpper (kind : Kind) (text : List Char) :
    read kind (text.map Char.toUpper) = recastReading .capitals (read kind text) := by
  have hstart : (ReadState.start kind).recast .capitals = ReadState.start kind := by
    cases kind <;> rfl
  have hread := ReadState.read_recast Recast.capitals_faithful (ReadState.start kind) 0 0 0 text
  rwa [hstart] at hread

namespace Stmt

variable {text text' : List Char}

theorem parseWhole_map_toUpper (hquote : Unquoted text) (kind : Kind) :
    parseWhole kind (text.map Char.toUpper) = parseWhole kind text := by
  rw [parseWhole, Sentence.read_map_toUpper, parseWhole]
  cases hread : Sentence.read kind text with
  | error halt => cases halt <;> rfl
  | ok s =>
      have hsame := s.resolve_recast Recast.capitals_faithful (hquote.ne_printText hread)
      exact congrArg Except.ok (hsame.trans (moved_zero s.resolve))

/-- Texts with the same letters come to the same, or reading them stops at the same place. -/
theorem parseWhole_congr (hcase : SameLetters text text') (hquote : Unquoted text) (kind : Kind) :
    parseWhole kind text = parseWhole kind text' := by
  rw [← parseWhole_map_toUpper hquote, hcase,
    parseWhole_map_toUpper (hquote.of_sameLetters hcase)]

theorem beforeCut?_congr (hcase : SameLetters text text') (hquote : Unquoted text) (kind : Kind)
    (halt : Stop) : beforeCut? kind text halt = beforeCut? kind text' halt := by
  unfold beforeCut?
  cases halt.cut? kind with
  | none => rfl
  | some place =>
      have hfront := parseWhole_congr (hcase.take place) (hquote.mono (List.take_subset place text))
        kind
      simp only [hfront]

/-- Texts with the same letters are parsed alike, or both are misread at the same place. -/
theorem parseTrimmed_cases (hcase : SameLetters text text') (hquote : Unquoted text)
    (kind : Kind) :
    parseTrimmed kind text = parseTrimmed kind text' ∨
      ∃ halt, parseTrimmed kind text = .error (.misread (misread kind text halt)) ∧
        parseTrimmed kind text' = .error (.misread (misread kind text' halt)) := by
  have hwhole := parseWhole_congr hcase hquote kind
  have hcut := beforeCut?_congr hcase hquote kind
  unfold parseTrimmed
  split
  · exact .inl rfl
  · rw [hwhole]
    cases parseWhole kind text' with
    | ok outcome => exact .inl rfl
    | error halt =>
        -- What stands before the cut is the same; only the report of the halt shows the text.
        simp only [hcut]
        cases beforeCut? kind text' halt with
        | none => exact .inr ⟨halt, rfl, rfl⟩
        | some outcome => exact .inl rfl

end Stmt

/-- The misreading, quoting another statement. -/
def Misreading.quoting (shown : String) : Misreading → Misreading
  | .unknownStatement _ => .unknownStatement shown
  | .malformed kind _ => .malformed kind shown
  | cause => cause

namespace Stmt

/-- Two texts are the same statement, or misread at the same column in the same words, but for the
    statement that is quoted; or a line number in both is too long to be read. -/
inductive ParsedAlike (text text' : List Char) :
    Except Rejection Stmt → Except Rejection Stmt → Prop
  | parsed (stmt : Stmt) : ParsedAlike text text' (.ok stmt) (.ok stmt)
  | misread {m m' : Misread} (hcolumn : m.column = m'.column)
      (hcause : ∀ shown, m.cause.quoting shown = m'.cause.quoting shown) :
      ParsedAlike text text' (.error (.misread m)) (.error (.misread m'))
  | longTarget {kind : Kind} {length : Nat} (htext : Text.HoldsLongNumber text length)
      (htext' : Text.HoldsLongNumber text' length) :
      ParsedAlike text text' (.error (.target kind (.tooLong length)))
        (.error (.target kind (.tooLong length)))

variable {text text' : List Char}

theorem parsedAlike_parseAs (hcase : SameLetters text text') (hquote : Unquoted text)
    (kind : Kind) : ParsedAlike text text' (parseAs kind text) (parseAs kind text') := by
  have htrimmed := hquote.mono (Text.trim_isInfix text).subset
  rcases parseTrimmed_cases hcase.trim htrimmed kind with hsame | ⟨halt, htext, htext'⟩
  · -- Nothing is quoted that differs; only what a line number is refused with has to be looked at.
    have hsame : parseAs kind text = parseAs kind text' := hsame
    cases houtcome : parseAs kind text' with
    | ok stmt =>
        rw [hsame, houtcome]
        exact .parsed stmt
    | error rejection =>
        rw [houtcome] at hsame
        cases rejection with
        | misread m =>
            rw [hsame]
            exact .misread rfl fun _ => rfl
        | target kind' flaw =>
            obtain ⟨length, rfl, hlong⟩ := holdsLongNumber_of_parseAs hsame
            obtain ⟨_, hlength, hlong'⟩ := holdsLongNumber_of_parseAs houtcome
            obtain rfl := Text.IntegerFlaw.tooLong.inj hlength
            rw [hsame]
            exact .longTarget (hlong.mono (Text.trim_isInfix text))
              (hlong'.mono (Text.trim_isInfix text'))
  · rw [parseAs, parseAs, htext, htext']
    refine .misread rfl fun shown => ?_
    simp only [misread]
    split <;> rfl

theorem parsedAlike_parse (hcase : SameLetters text text') (hquote : Unquoted text) :
    ParsedAlike text text' (parse text) (parse text') := by
  rw [parse, parse, hcase.trim.ofText]
  exact parsedAlike_parseAs hcase hquote _

/-- Statements without quotes that differ in the case of letters only are of one kind, and they are
    parsed alike, as statements of that kind or of any other. -/
theorem case_ignored_without_quotes (hcase : SameLetters text text') (hquote : Unquoted text) :
    Kind.ofText text = Kind.ofText text' ∧
      ParsedAlike text text' (parse text) (parse text') ∧
      ∀ kind, ParsedAlike text text' (parseAs kind text) (parseAs kind text') :=
  ⟨hcase.ofText, parsedAlike_parse hcase hquote, parsedAlike_parseAs hcase hquote⟩

/-- A loop in small letters and in capitals, and a bracket that is never closed. -/
theorem case_ignored_without_quotes_mixed :
    (SameLetters "for e1=t to i step s".toList "FOR E1=T To I StEp S".toList ∧
      Unquoted "for e1=t to i step s".toList ∧
      Kind.ofText "for e1=t to i step s".toList = .FOR ∧
      ParsedAlike "for e1=t to i step s".toList "FOR E1=T To I StEp S".toList
        (parse "for e1=t to i step s".toList)
        (.ok (.forTo 67 (.var 19) (.var 8) (some (.var 18))))) ∧
    ParsedAlike "print (a".toList "Print (A".toList (parse "print (a".toList)
      (.error (.misread ⟨.malformed .PRINT "Print (A", some 8⟩)) := by
  have hcase : SameLetters "for e1=t to i step s".toList "FOR E1=T To I StEp S".toList := by
    decide
  have hquote : Unquoted "for e1=t to i step s".toList := by decide
  have hloop : parse "FOR E1=T To I StEp S".toList =
      .ok (.forTo 67 (.var 19) (.var 8) (some (.var 18))) := rfl
  have hopen : parse "Print (A".toList =
      .error (.misread ⟨.malformed .PRINT "Print (A", some 8⟩) := rfl
  obtain ⟨hkind, hparse, -⟩ := case_ignored_without_quotes hcase hquote
  rw [hloop] at hparse
  refine ⟨⟨hcase, hquote, hkind.trans (by decide), hparse⟩, ?_⟩
  rw [← hopen]
  exact (case_ignored_without_quotes (by decide) (by decide)).2.1

end Stmt

/-! ## Line numbers that are too long -/

theorem sameLetters_jump (n : Nat) :
    SameLetters ("GOTO ".toList ++ Nat.toDigits 10 n) ("goto ".toList ++ Nat.toDigits 10 n) := by
  have hword : "GOTO ".toList.map Char.toUpper = "goto ".toList.map Char.toUpper := by decide
  rw [SameLetters, List.map_append, hword, List.map_append]

theorem unquoted_jump (n : Nat) : Unquoted ("GOTO ".toList ++ Nat.toDigits 10 n) := by
  intro mark hmark hmem
  simp only [List.mem_cons, List.not_mem_nil, or_false] at hmark
  rcases List.mem_append.mp hmem with hword | hdigit
  · rcases hmark with rfl | rfl <;> exact absurd hword (by decide)
  · have hisDigit := Text.isDigit_of_mem_toDigits hdigit
    rcases hmark with rfl | rfl <;> exact absurd hisDigit (by decide)

namespace Stmt

/-- Whatever stands for a jump in small letters, it is refused as the jump in capitals is. -/
theorem parse_small_jump_of_le {n : Nat} (hn : 10 ^ Text.maxDigits ≤ n) :
    parse ("goto ".toList ++ Nat.toDigits 10 n) =
      .error (.target .GOTO (.tooLong (Nat.toDigits 10 n).length)) := by
  have hcapital := StmtDraft.parse_goto_of_le hn
  rw [StmtDraft.text_goto] at hcapital
  have halike := parsedAlike_parse (sameLetters_jump n) (unquoted_jump n)
  rw [hcapital] at halike
  generalize parse ("goto ".toList ++ Nat.toDigits 10 n) = outcome at halike
  cases halike with
  | longTarget _ _ => rfl

/-- A jump to a line whose number is too long is no statement, in small letters or in capitals, and
    it is not misread. -/
theorem long_jump_not_misread :
    SameLetters ("GOTO ".toList ++ Nat.toDigits 10 (10 ^ Text.maxDigits))
        ("goto ".toList ++ Nat.toDigits 10 (10 ^ Text.maxDigits)) ∧
      Unquoted ("GOTO ".toList ++ Nat.toDigits 10 (10 ^ Text.maxDigits)) ∧
      ∀ word ∈ ["GOTO ", "goto "],
        (∀ stmt, parse (word.toList ++ Nat.toDigits 10 (10 ^ Text.maxDigits)) ≠ .ok stmt) ∧
        ∀ m, parse (word.toList ++ Nat.toDigits 10 (10 ^ Text.maxDigits)) ≠
          .error (.misread m) := by
  have hcapital := StmtDraft.parse_goto_of_le (Nat.le_refl (10 ^ Text.maxDigits))
  rw [StmtDraft.text_goto] at hcapital
  have hsmall := parse_small_jump_of_le (Nat.le_refl (10 ^ Text.maxDigits))
  refine ⟨sameLetters_jump _, unquoted_jump _, fun word hword => ?_⟩
  simp only [List.mem_cons, List.not_mem_nil, or_false] at hword
  rcases hword with rfl | rfl
  · rw [hcapital]
    exact ⟨nofun, nofun⟩
  · rw [hsmall]
    exact ⟨nofun, nofun⟩

end Stmt

end LineBasic
