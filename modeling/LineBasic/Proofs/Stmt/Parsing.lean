/-
  LineBasic.Proofs.Stmt.Parsing

  The ways in which a text can come out of parsing, each with what it takes. What holds of every
  parsed statement, or of every rejection, follows by going through them.
-/
import LineBasic.Stmt.Parse

namespace LineBasic.Stmt

/-- What parsing a trimmed text as a statement of a kind gives. -/
inductive Parsing (kind : Kind) (text : List Char) : Except Rejection Stmt → Prop
  | stop (hkind : kind = .END) : Parsing kind text (.ok .stop)
  | whole {s : Sentence} {outcome : Except Rejection Stmt} (hkind : kind ≠ .END)
      (hread : Sentence.read kind text = .ok s) (hs : s.resolve = outcome) :
      Parsing kind text outcome
  /-- The text behind the statement is ignored. -/
  | cut {place : Nat} {s : Sentence} {stmt : Stmt} (hread : Sentence.read kind text =
        .error (.refused place)) (hkind : kind = .PRINT ∨ kind = .IF) (hplace : 0 < place)
      (hcut : Sentence.read kind (text.take place) = .ok s) (hs : s.resolve = .ok stmt)
      (hrest : stmt.ignoresRest = true) : Parsing kind text (.ok stmt)
  /-- The sentence before the rest of the text does not resolve. -/
  | cutRefused {place : Nat} {s : Sentence} {r : Rejection} (hread : Sentence.read kind text =
        .error (.refused place)) (hkind : kind = .PRINT ∨ kind = .IF) (hplace : 0 < place)
      (hcut : Sentence.read kind (text.take place) = .ok s) (hs : s.resolve = .error r) :
      Parsing kind text (.error r)
  /-- No sentence is read, and none before the rest of the text that may be followed by it. -/
  | misread {halt : Stop} (hkind : kind ≠ .END) (hread : Sentence.read kind text = .error halt)
      (hnone : ∀ place s, halt = .refused place → kind = .PRINT ∨ kind = .IF → 0 < place →
        Sentence.read kind (text.take place) = .ok s →
          ∃ stmt, s.resolve = .ok stmt ∧ stmt.ignoresRest = false) :
      Parsing kind text (.error (.misread (Stmt.misread kind text halt)))

theorem cut?_eq_some_iff {kind : Kind} {halt : Stop} {place : Nat} :
    halt.cut? kind = some place ↔
      halt = .refused place ∧ (kind = .PRINT ∨ kind = .IF) ∧ 0 < place := by
  cases halt with
  | ended lastToken => simp [Stop.cut?]
  | refused p =>
      simp only [Stop.cut?, Option.ite_none_right_eq_some, Option.some.injEq, Stop.refused.injEq]
      refine ⟨?_, ?_⟩
      · rintro ⟨⟨hkind, hp⟩, rfl⟩
        exact ⟨rfl, hkind, hp⟩
      · rintro ⟨rfl, hkind, hp⟩
        exact ⟨⟨hkind, hp⟩, rfl⟩

theorem parsing_of_halt {kind : Kind} {text : List Char} {halt : Stop} (hkind : kind ≠ .END)
    (hread : Sentence.read kind text = .error halt) :
    Parsing kind text
      ((beforeCut? kind text halt).getD (.error (.misread (Stmt.misread kind text halt)))) := by
  cases hcut : halt.cut? kind with
  | none =>
      have hnone : beforeCut? kind text halt = none := by simp [beforeCut?, hcut]
      rw [hnone]
      refine .misread hkind hread fun place s hhalt hcase hplace _ => ?_
      rw [cut?_eq_some_iff.mpr ⟨hhalt, hcase, hplace⟩] at hcut
      cases hcut
  | some place =>
      obtain ⟨rfl, hcase, hplace⟩ := cut?_eq_some_iff.mp hcut
      simp only [beforeCut?, hcut, parseWhole]
      cases hfront : Sentence.read kind (text.take place) with
      | error halt =>
          refine .misread hkind hread fun p s hp _ _ hs => ?_
          obtain rfl := Stop.refused.inj hp
          rw [hfront] at hs
          cases hs
      | ok s =>
          cases hs : s.resolve with
          | error r =>
              simp only [Except.map, hs]
              exact .cutRefused hread hcase hplace hfront hs
          | ok stmt =>
              simp only [Except.map, hs]
              cases hrest : stmt.ignoresRest with
              | true => exact .cut hread hcase hplace hfront hs hrest
              | false =>
                  refine .misread hkind hread fun p s' hp _ _ hs' => ?_
                  obtain rfl := Stop.refused.inj hp
                  rw [hfront] at hs'
                  obtain rfl := Except.ok.inj hs'
                  exact ⟨stmt, hs, hrest⟩

theorem parsing (kind : Kind) (text : List Char) :
    Parsing kind (Text.trim text) (parseAs kind text) := by
  unfold parseAs parseTrimmed
  split
  · exact .stop rfl
  · rename_i hkind
    cases hread : Sentence.read kind (Text.trim text) with
    | error halt =>
        simp only [parseWhole, hread, Except.map]
        exact parsing_of_halt hkind hread
    | ok s =>
        simp only [parseWhole, hread, Except.map]
        exact .whole hkind hread rfl

/-- A text that is read is parsed as the sentence resolves. -/
theorem parseAs_of_read {kind : Kind} {text : List Char} {s : Sentence} (hkind : kind ≠ .END)
    (h : Sentence.read kind (Text.trim text) = .ok s) : parseAs kind text = s.resolve := by
  have hparsing := parsing kind text
  generalize parseAs kind text = outcome at hparsing
  cases hparsing with
  | stop hend => exact absurd hend hkind
  | whole _ hread hs =>
      obtain rfl := Except.ok.inj (h.symm.trans hread)
      exact hs.symm
  | cut hread _ _ _ _ _ => simp [h] at hread
  | cutRefused hread _ _ _ _ => simp [h] at hread
  | misread _ hread _ => simp [h] at hread

/-- Where nothing may be ignored behind a statement, a text that is not read to its end is
    misread. -/
theorem parseAs_of_halt {kind : Kind} {text : List Char} {halt : Stop} (hkind : kind ≠ .END)
    (hcut : kind ≠ .PRINT ∧ kind ≠ .IF) (h : Sentence.read kind (Text.trim text) = .error halt) :
    parseAs kind text = .error (.misread (misread kind (Text.trim text) halt)) := by
  have hparsing := parsing kind text
  generalize parseAs kind text = outcome at hparsing
  cases hparsing with
  | stop hend => exact absurd hend hkind
  | whole _ hread _ => simp [h] at hread
  | cut _ hcase _ _ _ _ => exact absurd hcase (by simp [hcut])
  | cutRefused _ hcase _ _ _ => exact absurd hcase (by simp [hcut])
  | misread _ hread _ =>
      obtain rfl := Except.error.inj (h.symm.trans hread)
      rfl

end LineBasic.Stmt
