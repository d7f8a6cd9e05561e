/-
  LineBasic.Proofs.Stmt.Acceptance

  A trimmed text parses as a whole exactly when the grammar derives a sentence from it that
  resolves. The text may be cut into lexemes in any way: all cuts from which a sentence can be
  derived lead to the same sentence.
-/
import LineBasic.Proofs.Reader.Reading
import LineBasic.Proofs.Sentence.Meaning
import LineBasic.Proofs.Text.Trim
import LineBasic.Stmt.Parse

namespace LineBasic

open Grammar

/-- A trimmed text does not end in a gap. -/
theorem isGap_getLast?_trim {text : List Char} :
    ∀ c ∈ (Text.trim text).getLast?, isGap c = false := by
  intro c hc
  have hblank := Text.getLast?_trim hc
  by_contra hgap
  rcases isGap_iff.mp (Bool.eq_true_of_not_eq_false hgap) with rfl | rfl
  · exact absurd hblank (by decide)
  · exact absurd hblank (by decide)

theorem Grammar.Spells.all_match {place : Nat} {text : List Char} {xs : List Lexeme}
    (h : Spells place text xs) : ∀ x ∈ xs, x.Matches := by
  induction h with
  | nil hgap => simp
  | cons hgap hplace hx hrest ih => simpa using ⟨hx, ih⟩

/-- The line numbers of a sentence are pieces of the text that consist of digits. -/
theorem Grammar.Derives.lineNumbers_digits {kind : Kind} {xs : List Lexeme} {s : Sentence}
    (h : Derives kind xs s) (hxs : ∀ x ∈ xs, x.Matches) :
    ∀ digits ∈ s.lineNumbers, ∀ c ∈ digits, Text.isDecimal c = true := by
  have hint : ∀ x ∈ xs, x.terminal = .INT → ∀ c ∈ x.chars, Text.isDecimal c = true := by
    intro x hx hterminal
    have hmatch := hxs x hx
    rw [Lexeme.Matches, hterminal] at hmatch
    exact (mem_digits.mp hmatch).2
  cases h with
  | goto hw hx => simpa [Sentence.lineNumbers] using hint _ (by simp) hx
  | ifThen hw hc hx hy => simpa [Sentence.lineNumbers] using hint _ (by simp) hy
  | _ => simp [Sentence.lineNumbers]

/-- Reading the whole of a text yields a statement when the sentence that it is resolves. -/
theorem Stmt.parseWhole_eq_ok_iff_read {kind : Kind} {text : List Char} {stmt : Stmt} :
    parseWhole kind text = .ok (.ok stmt) ↔
      ∃ s, Sentence.read kind text = .ok s ∧ s.resolve = .ok stmt := by
  unfold parseWhole
  cases Sentence.read kind text with
  | error halt => simp [Except.map]
  | ok s => simp [Except.map]

/-- The trimmed text is a statement of the kind exactly when it can be cut into lexemes that derive
    a sentence which means the statement, subscripts and dimensions bare letters only, stays within
    the depth of expressions and has line numbers that can be read. No text has two sentences. -/
theorem Stmt.parseWhole_trim_iff_derives (kind : Kind) (text : List Char) :
    (∀ stmt : Stmt, parseWhole kind (Text.trim text) = .ok (.ok stmt) ↔
      ∃ xs s, Spells 0 (Text.trim text) xs ∧ Derives kind xs s ∧
        (∀ m ∈ s.arrays, m.slot < letterCount) ∧ (∀ e ∈ s.phrases, e.depth ≤ maxNesting) ∧
        (∀ digits ∈ s.lineNumbers, digits.length ≤ Text.maxDigits) ∧ s.meaning = stmt) ∧
    {s | ∃ xs, Spells 0 (Text.trim text) xs ∧ Derives kind xs s}.Subsingleton := by
  -- Reading finds exactly the derived sentences, and being a function, at most one.
  have hread : ∀ s, Sentence.read kind (Text.trim text) = .ok s ↔
      ∃ xs, Spells 0 (Text.trim text) xs ∧ Derives kind xs s :=
    fun s => read_eq_ok_iff isGap_getLast?_trim
  refine ⟨?_, ?_⟩
  · intro stmt
    rw [parseWhole_eq_ok_iff_read]
    refine ⟨?_, ?_⟩
    · rintro ⟨s, hs, hresolve⟩
      obtain ⟨xs, hspells, hderives⟩ := (hread s).mp hs
      obtain ⟨⟨hbare, hshallow, hreadable⟩, hmeaning⟩ := Sentence.resolve_eq_ok_iff.mp hresolve
      exact ⟨xs, s, hspells, hderives, hbare, hshallow, fun digits hd => (hreadable digits hd).2,
        hmeaning⟩
    · rintro ⟨xs, s, hspells, hderives, hbare, hshallow, hlength, hmeaning⟩
      have hdigits := hderives.lineNumbers_digits hspells.all_match
      have hresolvable : s.Resolvable :=
        ⟨hbare, hshallow, fun digits hd => ⟨hdigits digits hd, hlength digits hd⟩⟩
      exact ⟨s, (hread s).mpr ⟨xs, hspells, hderives⟩,
        Sentence.resolve_eq_ok_iff.mpr ⟨hresolvable, hmeaning⟩⟩
  · intro s hs t ht
    exact Except.ok.inj (((hread s).mpr hs).symm.trans ((hread t).mpr ht))

end LineBasic
