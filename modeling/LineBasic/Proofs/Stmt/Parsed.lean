/-
  LineBasic.Proofs.Stmt.Parsed

  What every parsed statement is: of the form that its kind stands for, with slots and letters that
  name variables, and with arrays that are named by a bare letter in the text.

  The arrays of a sentence are the names that an opening bracket stands behind, wherever that is in
  the text (`Derives.mem_arrays_iff`). A name with a digit in such a place is never let through.
-/
import LineBasic.Proofs.Stmt.WellFormed

namespace LineBasic

namespace Grammar

/-! ## Names before a bracket -/

/-- The lexeme is a name, and an opening bracket comes next. -/
def Subscripts (x : Lexeme) : List Lexeme → Prop
  | y :: z :: rest =>
    (y = x ∧ y.terminal = .NAME ∧ z.terminal = .symbol "(") ∨ Subscripts x (z :: rest)
  | _ => False

namespace Subscripts

variable {x y z : Lexeme} {xs ys : List Lexeme}

theorem mem (h : Subscripts x xs) : x ∈ xs := by
  induction xs with
  | nil => exact h.elim
  | cons y xs ih =>
      cases xs with
      | nil => exact h.elim
      | cons z rest =>
          rcases h with ⟨rfl, -⟩ | h
          · exact List.mem_cons_self
          · exact List.mem_cons_of_mem _ (ih h)

theorem terminal_eq (h : Subscripts x xs) : x.terminal = .NAME := by
  induction xs with
  | nil => exact h.elim
  | cons y xs ih =>
      cases xs with
      | nil => exact h.elim
      | cons z rest =>
          rcases h with ⟨rfl, hname, -⟩ | h
          · exact hname
          · exact ih h

theorem cons_iff (hz : z.terminal ≠ .NAME) : Subscripts x (z :: xs) ↔ Subscripts x xs := by
  cases xs with
  | nil => simp [Subscripts]
  | cons y xs => simp [Subscripts, hz]

theorem append_iff (hz : z.terminal ≠ .symbol "(") :
    Subscripts x (xs ++ z :: ys) ↔ Subscripts x xs ∨ Subscripts x (z :: ys) := by
  induction xs with
  | nil => simp [Subscripts]
  | cons y xs ih =>
      cases xs with
      | nil => simp [Subscripts, hz]
      | cons y' xs =>
          simp only [List.cons_append, Subscripts] at ih ⊢
          rw [ih, or_assoc]

/-- A lexeme that is neither a name nor an opening bracket keeps apart what is around it. -/
theorem between_iff (hname : z.terminal ≠ .NAME) (hopen : z.terminal ≠ .symbol "(") :
    Subscripts x (xs ++ z :: ys) ↔ Subscripts x xs ∨ Subscripts x ys := by
  rw [append_iff hopen, cons_iff hname]

theorem concat_iff (hopen : z.terminal ≠ .symbol "(") :
    Subscripts x (xs ++ [z]) ↔ Subscripts x xs := by
  rw [append_iff hopen]
  simp [Subscripts]

theorem bracketed_iff (hname : y.terminal = .NAME) (hopen : z.terminal = .symbol "(") :
    Subscripts x (y :: z :: xs) ↔ y = x ∨ Subscripts x xs := by
  have hz : z.terminal ≠ .NAME := by simp [hopen]
  simp [Subscripts, hname, hopen, cons_iff hz]

end Subscripts

/-- The mentions are those of the names before a bracket. -/
def Names (xs : List Lexeme) (ms : List Mention) : Prop :=
  ∀ m, m ∈ ms ↔ ∃ x, Subscripts x xs ∧ x.mention = m

namespace Names

variable {x y z : Lexeme} {xs ys : List Lexeme} {ms ns : List Mention} {t : Terminal}

theorem one (x : Lexeme) : Names [x] [] := by
  intro m
  simp [Subscripts]

theorem congr (h : Names xs ms) (hmem : ∀ m, m ∈ ns ↔ m ∈ ms) : Names xs ns := by
  intro m
  rw [hmem m, h m]

theorem cons (h : Names xs ms) (hz : z.terminal = t) (ht : t ≠ .NAME) : Names (z :: xs) ms := by
  intro m
  simp only [h m, Subscripts.cons_iff (hz ▸ ht)]

theorem concat (h : Names xs ms) (hz : z.terminal = t) (ht : t ≠ .symbol "(") :
    Names (xs ++ [z]) ms := by
  intro m
  simp only [h m, Subscripts.concat_iff (hz ▸ ht)]

theorem between (hxs : Names xs ms) (hys : Names ys ns) (hz : z.terminal = t)
    (ht : t ≠ .NAME ∧ t ≠ .symbol "(") : Names (xs ++ z :: ys) (ms ++ ns) := by
  intro m
  simp only [List.mem_append, hxs m, hys m, Subscripts.between_iff (hz ▸ ht.1) (hz ▸ ht.2),
    or_and_right, exists_or]

/-- A name with a subscript, and the names in the subscript. -/
theorem bracketed (h : Names xs ms) (hname : y.terminal = .NAME) (hopen : x.terminal = .symbol "(")
    (hclose : z.terminal = .symbol ")") : Names (y :: x :: (xs ++ [z])) (y.mention :: ms) := by
  have hz : z.terminal ≠ .symbol "(" := by simp [hclose]
  intro m
  simp only [List.mem_cons, h m, Subscripts.bracketed_iff hname hopen, Subscripts.concat_iff hz,
    or_and_right, exists_or, exists_eq_left', eq_comm]

end Names

/-! ## Arrays of a derivation -/

theorem DerivesPhrase.names {rank : Rank} {xs : List Lexeme} {e : Phrase}
    (h : DerivesPhrase rank xs e) : Names xs e.arrays := by
  -- Operators, signs and brackets are no names, so only a subscript adds to what is inside.
  induction h with
  | ofProduct _ ih => exact ih
  | @sum _ _ _ _ _ op _ _ hx _ iha ihb => exact iha.between ihb hx (by cases op <;> decide)
  | ofFactor _ ih => exact ih
  | @product _ _ _ _ _ op _ _ hx _ iha ihb => exact iha.between ihb hx (by cases op <;> decide)
  | signed hx _ ih => exact ih.cons hx (by simp)
  | group hx _ hy ih => exact (ih.concat hy (by decide)).cons hx (by decide)
  | element hname hx _ hy ih => exact ih.bracketed hname hx hy
  | name _ => exact .one _
  | numeral _ => exact .one _

theorem DerivesClause.names {xs : List Lexeme} {c : Clause} (h : DerivesClause xs c) :
    Names xs (c.phrases.flatMap Phrase.arrays) := by
  cases h with
  | nonzero he => exact he.names.congr (by simp [Clause.phrases])
  | @compare _ _ _ _ _ relation ha hx hb =>
      exact (ha.names.between hb.names hx (by cases relation <;> decide)).congr
        (by simp [Clause.phrases])

theorem DerivesRecipient.names {xs : List Lexeme} {r : Recipient} (h : DerivesRecipient xs r) :
    Names xs (r.arrays ++ r.phrases.flatMap Phrase.arrays) := by
  cases h with
  | scalar _ => exact .one _
  | element hname hx he hy =>
      exact (he.names.bracketed hname hx hy).congr (by simp [Recipient.arrays, Recipient.phrases])

theorem DerivesItems.names {xs : List Lexeme} {items : List (Mention × Phrase)}
    (h : DerivesItems xs items) :
    Names xs (items.map (·.1) ++ (items.map (·.2)).flatMap Phrase.arrays) := by
  have hitem : ∀ {xs : List Lexeme} {item : Mention × Phrase}, DerivesItem xs item →
      Names xs (item.1 :: item.2.arrays) := by
    rintro xs item ⟨hname, hx, he, hy⟩
    exact he.names.bracketed hname hx hy
  induction h with
  | one h => exact (hitem h).congr (by simp)
  | more _ hx h ih =>
      refine (ih.between (hitem h) hx (by decide)).congr fun m => ?_
      simp only [List.map_append, List.map_cons, List.map_nil, List.flatMap_append,
        List.flatMap_cons, List.flatMap_nil, List.append_nil, List.mem_append, List.mem_cons,
        List.not_mem_nil, or_false]
      tauto

theorem names_assignment {xs ys : List Lexeme} {x : Lexeme} {r : Recipient} {e : Phrase}
    (hr : DerivesRecipient xs r) (hx : x.terminal = .symbol "=") (he : DerivesPhrase .sum ys e) :
    Names (xs ++ x :: ys) (Sentence.assign r e).arrays :=
  (hr.names.between he.names hx (by decide)).congr
    (by simp [Sentence.arrays, Sentence.ownArrays, Sentence.phrases, List.flatMap_append])

/-- The arrays of a sentence are the names before a bracket, wherever it stands. -/
theorem Derives.mem_arrays_iff {kind : Kind} {xs : List Lexeme} {s : Sentence}
    (h : Derives kind xs s) (m : Mention) :
    m ∈ s.arrays ↔ ∃ x, Subscripts x xs ∧ x.mention = m := by
  suffices hnames : Names xs s.arrays from hnames m
  cases h with
  | letAssign hw hr hx he => exact (names_assignment hr hx he).cons hw (by decide)
  | assign hr hx he => exact names_assignment hr hx he
  | dim hw hitems => exact hitems.names.cons hw (by decide)
  | @forTo w name x y xs ys a b hw hname hx ha hy hb =>
      have hbounds := ha.names.between hb.names hy (by decide)
      have hloop := ((Names.one name).between hbounds hx (by decide)).cons hw (by decide)
      exact hloop.congr (by simp [Sentence.arrays, Sentence.ownArrays, Sentence.phrases])
  | @forStep w name x y z xs ys zs a b c hw hname hx ha hy hb hz hc =>
      have hrest := hb.names.between hc.names hz (by decide)
      have hbounds := ha.names.between hrest hy (by decide)
      have hloop := ((Names.one name).between hbounds hx (by decide)).cons hw (by decide)
      exact hloop.congr (by simp [Sentence.arrays, Sentence.ownArrays, Sentence.phrases])
  | next hw => exact .one _
  | nextName hw hname => exact (Names.one _).cons hw (by decide)
  | printText hw hx => exact (Names.one _).cons hw (by decide)
  | printNothing hw => exact .one _
  | print hw he =>
      exact (he.names.cons hw (by decide)).congr
        (by simp [Sentence.arrays, Sentence.ownArrays, Sentence.phrases])
  | goto hw hx => exact (Names.one _).cons hw (by decide)
  | ifTest hw hc => exact hc.names.cons hw (by decide)
  | @ifThen w x y xs c hw hc hx hy =>
      have hjump := (hc.names.between (.one y) hx (by decide)).cons hw (by decide)
      exact hjump.congr (by simp [Sentence.arrays, Sentence.ownArrays, Sentence.phrases])

/-- A name is the slot of a letter exactly when it is a letter alone. -/
theorem slot_lt_letterCount_iff {x : Lexeme} (hx : x.Matches) (hname : x.terminal = .NAME) :
    x.mention.slot < letterCount ↔ ∃ c, x.chars = [c] := by
  rw [Lexeme.Matches, hname] at hx
  obtain ⟨c, hc, hshape⟩ := mem_namePattern.mp hx
  obtain ⟨letter, hletter⟩ := Option.isSome_iff_exists.mp (letter?_isSome_iff.mpr hc)
  rcases hshape with h | ⟨d, hd, h⟩
  · have hscan : Name.scan? x.chars = some (letter, 1) := by simp [h, Name.scan?, hletter]
    simp [mention_slot hscan, Name.letter?_lt hletter, h]
  · obtain ⟨digit, hdigit⟩ := Option.isSome_iff_exists.mp (digit?_isSome_iff.mpr hd)
    have hscan : Name.scan? x.chars = some (Name.suffixedSlot letter digit, 2) := by
      simp [h, Name.scan?, hletter, hdigit]
    simp only [mention_slot hscan, h, Name.suffixedSlot]
    simp
    omega

/-- A sentence subscripts letters only exactly when the names before a bracket are letters. -/
theorem bare_iff {kind : Kind} {text : List Char} {place : Nat} {xs : List Lexeme} {s : Sentence}
    (hspells : Spells place text xs) (hs : Derives kind xs s) :
    (∀ m ∈ s.arrays, m.slot < letterCount) ↔ ∀ x, Subscripts x xs → ∃ c, x.chars = [c] := by
  have hname : ∀ x, Subscripts x xs → (x.mention.slot < letterCount ↔ ∃ c, x.chars = [c]) :=
    fun x hx => slot_lt_letterCount_iff (hspells.all_match x hx.mem) hx.terminal_eq
  refine ⟨fun h x hx => ?_, fun h m hm => ?_⟩
  · exact (hname x hx).mp (h _ ((hs.mem_arrays_iff _).mpr ⟨x, hx, rfl⟩))
  · obtain ⟨x, hx, rfl⟩ := (hs.mem_arrays_iff m).mp hm
    exact (hname x hx).mpr (h x hx)

end Grammar

/-! ## Parsed statements -/

open Grammar

namespace Stmt

variable {kind : Kind} {text : List Char} {stmt : Stmt}

/-- A parsed statement is what a sentence at the front of the text means, and the names before a
    bracket are letters there. -/
theorem exists_front_of_parseAs (hkind : kind ≠ .END) (h : parseAs kind text = .ok stmt) :
    ∃ front xs s, front <+: Text.trim text ∧ Spells 0 front xs ∧ Derives kind xs s ∧
      s.meaning = stmt ∧ ∀ x, Subscripts x xs → ∃ c, x.chars = [c] := by
  have hfront : ∀ {front : List Char} {s : Sentence}, front <+: Text.trim text →
      Sentence.read kind front = .ok s → s.resolve = .ok stmt →
        ∃ front xs s, front <+: Text.trim text ∧ Spells 0 front xs ∧ Derives kind xs s ∧
          s.meaning = stmt ∧ ∀ x, Subscripts x xs → ∃ c, x.chars = [c] := by
    intro front s hprefix hread hs
    obtain ⟨xs, hspells, hderives⟩ := derives_of_read hread
    obtain ⟨hresolvable, hmeaning⟩ := Sentence.resolve_eq_ok_iff.mp hs
    exact ⟨front, xs, s, hprefix, hspells, hderives, hmeaning,
      (bare_iff hspells hderives).mp hresolvable.bare⟩
  have hparsing := parsing kind text
  rw [h] at hparsing
  cases hparsing with
  | stop hend => exact absurd hend hkind
  | whole _ hread hs => exact hfront (List.prefix_refl _) hread hs
  | @cut place _ _ _ _ _ hcut hs _ => exact hfront (List.take_prefix place _) hcut hs

/-- A text with a bracket behind a name with a digit is not parsed, wherever the name stands. -/
theorem parseAs_ne_ok_of_subscripts {xs : List Lexeme} {s : Sentence} {x : Lexeme}
    (hspells : Spells 0 (Text.trim text) xs) (hs : Derives kind xs s) (hx : Subscripts x xs)
    (hlong : x.chars.length = 2) : parseAs kind text ≠ .ok stmt := by
  intro h
  have hkind : kind ≠ .END := by
    rintro rfl
    cases hs
  have hread := (read_eq_ok_iff isGap_getLast?_trim).mpr ⟨xs, hspells, hs⟩
  rw [parseAs_of_read hkind hread] at h
  have hbare := (Sentence.resolve_eq_ok_iff.mp h).1.bare
  obtain ⟨c, hc⟩ := (bare_iff hspells hs).mp hbare x hx
  simp [hc] at hlong

/-- What a statement is that a text parses as. It is well formed and of the form of its kind, and so
    the lines that are stored as `FOR` and as `NEXT` are those that run as such; it is what a
    sentence at the front of the text means, in which each array is a letter that a bracket stands
    behind; and no text is parsed in which a bracket stands behind a name with a digit. -/
theorem parsed_as_its_kind (kind : Kind) (text : List Char) :
    (∀ stmt, parseAs kind text = .ok stmt → stmt.WellFormed ∧ kind.Covers stmt ∧
      (kind ≠ .END → ∃ front xs s, front <+: Text.trim text ∧ Spells 0 front xs ∧
        Derives kind xs s ∧ s.meaning = stmt ∧
        (∀ m ∈ s.arrays, ∃ x c, Subscripts x xs ∧ x.mention = m ∧ x.chars = [c]))) ∧
    (∀ xs s x, Spells 0 (Text.trim text) xs → Derives kind xs s → Subscripts x xs →
      x.chars.length = 2 → ∀ stmt, parseAs kind text ≠ .ok stmt) ∧
    ∀ l : Listing, l.Stored → ∀ line ∈ l.lines, ∀ stmt, line.content = .ok stmt →
      (line.kind = .FOR ↔ ∃ slot start limit step, stmt = .forTo slot start limit step) ∧
      (line.kind = .NEXT ↔ ∃ slot, stmt = .next slot) := by
  refine ⟨fun stmt h => ?_, fun xs s x hspells hs hx hlong stmt => ?_, ?_⟩
  · obtain ⟨hwf, hcovers⟩ := wellFormed_of_parseAs h
    refine ⟨hwf, hcovers, fun hkind => ?_⟩
    obtain ⟨front, xs, s, hprefix, hspells, hs, hmeaning, hletters⟩ :=
      exists_front_of_parseAs hkind h
    refine ⟨front, xs, s, hprefix, hspells, hs, hmeaning, fun m hm => ?_⟩
    obtain ⟨x, hx, hmention⟩ := (hs.mem_arrays_iff m).mp hm
    obtain ⟨c, hc⟩ := hletters x hx
    exact ⟨x, c, hx, hmention, hc⟩
  · exact parseAs_ne_ok_of_subscripts hspells hs hx hlong
  · intro l hl line hline stmt hstmt
    have hcovers := ((hl.sound.lines line hline).wellFormed hstmt).2
    exact ⟨hcovers.eq_FOR_iff, hcovers.eq_NEXT_iff⟩

/-- An assignment to an element, a name with a digit that is subscripted inside a sum, and a stored
    `NEXT`. -/
theorem parsed_as_its_kind_element :
    (Stmt.assign (.element 0 (.num (Number.numeralValue ['2']))) (.var 37)).WellFormed ∧
      (∀ stmt, parseAs .PRINT "PRINT 1 + A1(2)".toList ≠ .ok stmt) ∧
      ∃ l : Listing, l.Stored ∧ ∃ line ∈ l.lines, line.content = .ok (.next none) ∧
        (line.kind = .NEXT ↔ ∃ slot, Stmt.next none = .next slot) := by
  refine ⟨?_, ?_, ?_⟩
  · have hparse : parseAs .LET "LET A(2) = B1".toList =
        .ok (.assign (.element 0 (.num (Number.numeralValue ['2']))) (.var 37)) := rfl
    exact ((parsed_as_its_kind .LET _).1 _ hparse).1
  · have hread : Sentence.read .PRINT (Text.trim "PRINT 1 + A1(2)".toList) =
        .ok (.print (some (.binary .add (.numeral ['1'])
          (.element ⟨27, 10⟩ (.numeral ['2']))))) := rfl
    obtain ⟨xs, hspells, hs⟩ := derives_of_read hread
    obtain ⟨x, hx, hmention⟩ := (hs.mem_arrays_iff ⟨27, 10⟩).mp (List.mem_singleton_self _)
    refine (parsed_as_its_kind .PRINT _).2.1 xs _ x hspells hs hx ?_
    -- The name has a digit, for its slot is none of a letter.
    have hmatch := hspells.all_match x hx.mem
    have hletter := slot_lt_letterCount_iff hmatch hx.terminal_eq
    rw [Lexeme.Matches, hx.terminal_eq] at hmatch
    obtain ⟨c, -, hc | ⟨d, -, hc⟩⟩ := mem_namePattern.mp hmatch
    · have hlt := hletter.mpr ⟨c, hc⟩
      rw [hmention] at hlt
      exact absurd hlt (by decide)
    · rw [hc]
      rfl
  · obtain ⟨l, hl⟩ : ∃ l : Listing, l = ({ capacity := 1000 } : Listing).applyAll
        [.insert 10 "NEXT"] := ⟨_, rfl⟩
    have hstored : l.Stored := ⟨1000, _, hl⟩
    obtain ⟨line, hmem, hcontent⟩ : ∃ line ∈ l.lines, line.content = .ok (.next none) := by
      rw [hl]
      exact ⟨_, List.mem_singleton_self _, rfl⟩
    have hkind := (parsed_as_its_kind .NEXT []).2.2 l hstored line hmem _ hcontent
    exact ⟨l, hstored, line, hmem, hcontent, hkind.2⟩

end Stmt

end LineBasic
