/-
  LineBasic.Proofs.Stmt.LetAssign

  `LET` in front of an assignment changes nothing but the columns. Behind the keyword and its blank
  the reader is in the state in which an assignment begins, four characters further on, so the two
  texts are read alike to the end or to the first mistake.

  No keyword hides an assignment: the second character of an assignment is a digit, a gap, an equals
  sign or a bracket, and that of every keyword is a letter.
-/
import LineBasic.Proofs.Reader.Recast
import LineBasic.Proofs.Stmt.RoundTrip
import LineBasic.Proofs.Stmt.Target

namespace LineBasic

open Grammar

/-! ## Further on in a text -/

/-- The same text, starting `n` characters further on. -/
def Recast.furtherOn (n : Nat) : Recast where
  char := id
  shift := n

theorem Recast.furtherOn_faithful (n : Nat) : (furtherOn n).Faithful where
  gap _ := rfl
  scan e s := by
    have htoken (t : Token) : t.recast (furtherOn n) = t := by
      cases t <;> simp [Token.recast, furtherOn]
    simp only [htoken, Prod.mk.eta, Option.map_id']
    exact congrArg (Token.scan? e) (List.map_id s)
  numeral digits := congrArg Number.numeralValue (List.map_id digits)

/-- Where a token begins, it does not matter where the last one stood. -/
theorem ReadState.read_lastToken (σ : ReadState) (lastToken lastToken' place : Nat) {c : Char}
    (hc : isGap c = false) (rest : List Char) :
    σ.read 0 lastToken place (c :: rest) = σ.read 0 lastToken' place (c :: rest) := by
  simp only [read, hc, Bool.false_eq_true, if_false]

/-- Behind `LET` a text is read as an assignment that starts further on. -/
theorem Sentence.read_let {c : Char} (hc : isGap c = false) (rest : List Char) :
    read .LET ("LET ".toList ++ c :: rest) =
      recastReading (.furtherOn 4) (read .ASSIGN (c :: rest)) := by
  calc read .LET ("LET ".toList ++ c :: rest)
      = ReadState.recipient.read 0 0 4 (c :: rest) := rfl
    _ = ReadState.recipient.read 0 4 4 (c :: rest) := ReadState.read_lastToken _ 0 4 4 hc rest
    _ = recastReading (.furtherOn 4) (ReadState.recipient.read 0 0 0 (c :: rest)) := by
      have hread := ReadState.read_recast (Recast.furtherOn_faithful 4) .recipient 0 0 0 (c :: rest)
      rwa [Recast.furtherOn, List.map_id] at hread

/-! ## What an assignment comes to -/

theorem Sentence.exists_assign_of_read {text : List Char} {s : Sentence}
    (h : read .ASSIGN text = .ok s) : ∃ left value, s = .assign left value := by
  obtain ⟨xs, -, hderives⟩ := derives_of_read h
  cases hderives with
  | assign _ _ _ => exact ⟨_, _, rfl⟩

namespace Stmt

/-- Two outcomes of parsing say the same, where the first text has `n` characters more in front. -/
inductive Agree (n : Nat) : Except Rejection Stmt → Except Rejection Stmt → Prop
  | parsed (stmt : Stmt) : Agree n (.ok stmt) (.ok stmt)
  | misread {m m' : Misread} (hcolumn : m.column = m'.column.map (· + n)) :
      Agree n (.error (.misread m)) (.error (.misread m'))

theorem agree_moved (n : Nat) {outcome : Except Rejection Stmt}
    (h : ∀ kind flaw, outcome ≠ .error (.target kind flaw)) :
    Agree n (moved n outcome) outcome := by
  match outcome with
  | .ok stmt => exact .parsed stmt
  | .error (.misread m) => exact .misread rfl
  | .error (.target kind flaw) => exact absurd rfl (h kind flaw)

end Stmt

/-! ## Keywords -/

/-- An assignment begins with a name and an equals sign or a bracket. -/
theorem Grammar.Derives.assign_front {xs : List Lexeme} {s : Sentence} (h : Derives .ASSIGN xs s) :
    ∃ name x ys, xs = name :: x :: ys ∧ name.terminal = .NAME ∧
      (x.terminal = .symbol "=" ∨ x.terminal = .symbol "(") := by
  cases h with
  | assign hleft hequals _ =>
      cases hleft with
      | scalar hname => exact ⟨_, _, _, rfl, hname, .inl hequals⟩
      | element hname hbracket _ _ => exact ⟨_, _, _, rfl, hname, .inr hbracket⟩

/-- The characters that follow a letter in an assignment come before all letters. -/
theorem Grammar.Spells.head_lt {place : Nat} {text : List Char} {x : Lexeme} {xs : List Lexeme}
    (h : Spells place text (x :: xs)) (hx : x.terminal = .symbol "=" ∨ x.terminal = .symbol "(") :
    ∃ d rest, text = d :: rest ∧ d.toNat < 'A'.toNat := by
  cases h with
  | @cons _ gap rest _ _ hgap _ hmatch _ =>
      cases gap with
      | nil =>
          rcases hx with hx | hx
          · rw [chars_of_symbol hmatch hx]
            exact ⟨'=', rest, rfl, by decide⟩
          · rw [chars_of_symbol hmatch hx]
            exact ⟨'(', rest, rfl, by decide⟩
      | cons d gap =>
          simp only [List.all_cons, Bool.and_eq_true] at hgap
          refine ⟨d, _, rfl, ?_⟩
          rcases isGap_iff.mp hgap.1 with rfl | rfl <;> decide

theorem Sentence.second_lt_of_read {text : List Char} {s : Sentence}
    (h : read .ASSIGN text = .ok s) (hfirst : ∀ c ∈ text.head?, isGap c = false) :
    ∃ c d rest, text = c :: d :: rest ∧ d.toNat < 'A'.toNat := by
  obtain ⟨xs, hspells, hderives⟩ := derives_of_read h
  obtain ⟨name, x, ys, rfl, hname, hx⟩ := hderives.assign_front
  cases hspells with
  | @cons _ gap rest _ _ hgap _ hmatch hrest =>
      obtain ⟨d, more, rfl, hd⟩ := hrest.head_lt hx
      rw [Lexeme.Matches, hname] at hmatch
      cases gap with
      | cons c gap =>
          simp only [List.all_cons, Bool.and_eq_true] at hgap
          simp [hfirst c (by simp)] at hgap
      | nil =>
          -- A name is a letter, or a letter with a digit, and then the digit comes second.
          obtain ⟨c, -, hchars | ⟨digit, hdigit, hchars⟩⟩ := mem_namePattern.mp hmatch
          · exact ⟨c, d, more, by rw [hchars]; rfl, hd⟩
          · refine ⟨c, digit, d :: more, by rw [hchars]; rfl, ?_⟩
            exact Nat.lt_of_le_of_lt (Char.isDigit_iff_toNat.mp hdigit).2 (by decide)

theorem isKeywordLetter_eq_false {letter c : Char} (hcapital : 'A'.toNat ≤ letter.toNat)
    (hsmall : 'A'.toNat ≤ letter.toLower.toNat) (hc : c.toNat < 'A'.toNat) :
    isKeywordLetter letter c = false := by
  have hne : c ≠ letter := by rintro rfl; omega
  have hne' : c ≠ letter.toLower := by rintro rfl; omega
  have hsmaller : c.toNat < 0x41 := hc
  simp [isKeywordLetter, hne, hne', show c.toNat ≠ 0x130 by omega, show c.toNat ≠ 0x131 by omega,
    show c.toNat ≠ 0x17F by omega]

/-- The second character of a keyword is a letter. -/
theorem Kind.keyword_second {kind : Kind} (h : kind ≠ .ASSIGN) :
    ∃ first second word, kind.keyword = first :: second :: word ∧
      'A'.toNat ≤ second.toNat ∧ 'A'.toNat ≤ second.toLower.toNat := by
  cases kind with
  | ASSIGN => exact absurd rfl h
  | _ => exact ⟨_, _, _, rfl, by decide, by decide⟩

theorem Kind.ofText_eq_assign {c d : Char} (hd : d.toNat < 'A'.toNat) (rest : List Char) :
    ofText (c :: d :: rest) = .ASSIGN := by
  have hnone : opened.find? (·.opens (c :: d :: rest)) = none := by
    refine List.find?_eq_none.mpr fun kind hkind => ?_
    have hassign : kind ≠ .ASSIGN := by
      rintro rfl
      revert hkind
      decide
    obtain ⟨first, second, word, hword, hcapital, hsmall⟩ := keyword_second hassign
    simp [opens, hword, afterWord?, isKeywordLetter_eq_false hcapital hsmall hd]
  rw [ofText, hnone]
  rfl

/-! ## `LET` and assignment -/

namespace Stmt

/-- The first character of a trimmed text is skipped by no reader. -/
theorem isGap_head_of_trim {text : List Char} (htrim : Text.trim text = text) :
    ∀ c ∈ text.head?, isGap c = false := by
  intro c hc
  rw [← htrim] at hc
  exact Bool.eq_false_iff.mpr fun hgap =>
    Bool.false_ne_true ((Text.head?_trim hc).symm.trans (isBlank_of_isGap hgap))

/-- Nothing is cut off a trimmed text with `LET` in front. -/
theorem trim_let {text : List Char} (hne : text ≠ []) (htrim : Text.trim text = text) :
    Text.trim ("LET ".toList ++ text) = "LET ".toList ++ text := by
  have hlast := List.getLast?_eq_some_getLast hne
  have hsolid : Text.EndsSolid text :=
    ⟨_, hlast, Text.getLast?_trim (s := text) (by rw [htrim, hlast])⟩
  refine hsolid.append.trim_eq_self fun c hc => ?_
  obtain rfl : 'L' = c := Option.some.inj hc
  decide

theorem agree_let {text : List Char} (hne : text ≠ []) (htrim : Text.trim text = text) :
    Agree 4 (parseAs .LET ("LET ".toList ++ text)) (parseAs .ASSIGN text) := by
  have hlet := trim_let hne htrim
  obtain ⟨c, rest, rfl⟩ := List.exists_cons_of_ne_nil hne
  have hread := Sentence.read_let (isGap_head_of_trim htrim c rfl) rest
  rw [← hlet] at hread
  cases hassign : Sentence.read .ASSIGN (c :: rest) with
  | error halt =>
      rw [hassign] at hread
      rw [parseAs_of_halt (by decide) (by decide) hread,
        parseAs_of_halt (by decide) (by decide) (htrim.symm ▸ hassign)]
      refine .misread ?_
      cases halt with
      | refused place => exact congrArg some (Nat.add_right_comm place 4 1)
      | ended lastToken => exact congrArg some (Nat.add_right_comm lastToken 4 1)
  | ok s =>
      rw [hassign] at hread
      obtain ⟨left, value, rfl⟩ := Sentence.exists_assign_of_read hassign
      have hsame := Sentence.resolve_recast (Recast.furtherOn_faithful 4) (.assign left value)
        (by simp)
      rw [parseAs_of_read (by decide) hread, hsame,
        parseAs_of_read (by decide) (htrim.symm ▸ hassign)]
      refine agree_moved 4 fun kind flaw htarget => ?_
      -- An assignment names no line.
      obtain ⟨digits, hdigits, -⟩ := Sentence.exists_line_of_resolve htarget
      simp [Sentence.lineNumbers] at hdigits

theorem ofText_of_parseAs_assign {text : List Char} {stmt : Stmt} (htrim : Text.trim text = text)
    (h : parseAs .ASSIGN text = .ok stmt) : Kind.ofText text = .ASSIGN := by
  cases hread : Sentence.read .ASSIGN text with
  | error halt =>
      rw [parseAs_of_halt (by decide) (by decide) (htrim.symm ▸ hread)] at h
      cases h
  | ok s =>
      obtain ⟨c, d, rest, rfl, hd⟩ := Sentence.second_lt_of_read hread (isGap_head_of_trim htrim)
      exact Kind.ofText_eq_assign hd rest

/-- A text with `LET` in front and the text alone, read as an assignment, are the same statement or
    both misread, the first with its column four further on. A text that is an assignment is of no
    other kind. -/
theorem let_agrees_with_assignment (text : List Char) (hne : text ≠ [])
    (htrim : Text.trim text = text) :
    Agree 4 (parse ("LET ".toList ++ text)) (parseAs .ASSIGN text) ∧
      ∀ stmt, parseAs .ASSIGN text = .ok stmt →
        Kind.ofText text = .ASSIGN ∧ parse text = .ok stmt := by
  have hkind : Kind.ofText (Kind.LET.keyword ++ ' ' :: text) = .LET :=
    Kind.ofText_keyword_append (by decide) rfl
  refine ⟨?_, fun stmt hstmt => ?_⟩
  · have hparse : parse ("LET ".toList ++ text) = parseAs .LET ("LET ".toList ++ text) := by
      rw [parse, trim_let hne htrim]
      exact congrArg (parseAs · _) hkind
    rw [hparse]
    exact agree_let hne htrim
  · have hassign := ofText_of_parseAs_assign htrim hstmt
    exact ⟨hassign, by rw [parse, htrim, hassign, hstmt]⟩

/-- An assignment whose name is the first letter of a keyword, and one that is refused for its
    array. -/
theorem let_agrees_with_assignment_keyword_letters :
    ("F = E".toList ≠ [] ∧ Text.trim "F = E".toList = "F = E".toList ∧
      Agree 4 (parse "LET F = E".toList) (.ok (.assign (.scalar 5) (.var 4))) ∧
      Kind.ofText "F = E".toList = .ASSIGN ∧
      parse "F = E".toList = .ok (.assign (.scalar 5) (.var 4))) ∧
    Agree 4 (parse "LET E = I0(E)".toList)
      (.error (.misread ⟨.suffixedArray 106, some 5⟩)) := by
  have hassign : parseAs .ASSIGN "F = E".toList = .ok (.assign (.scalar 5) (.var 4)) := rfl
  have hrefused : parseAs .ASSIGN "E = I0(E)".toList =
      .error (.misread ⟨.suffixedArray 106, some 5⟩) := rfl
  have htrim : Text.trim "F = E".toList = "F = E".toList := by decide
  have hagree := let_agrees_with_assignment "F = E".toList (by decide) htrim
  have hagree' := let_agrees_with_assignment "E = I0(E)".toList (by decide) (by decide)
  rw [hassign] at hagree
  rw [hrefused] at hagree'
  exact ⟨⟨by decide, htrim, hagree.1, hagree.2 _ rfl⟩, hagree'.1⟩

end Stmt

end LineBasic
