/-
  LineBasic.Name

  Names of variables. A name is a letter, or a letter and a digit; case does not matter. Each name
  has a slot: `A` to `Z` have the slots 0 to 25, and `A0` to `Z9` follow in order. The 26 arrays are
  named by a letter alone, so an array's letter is the slot of its name.
-/

namespace LineBasic

/-- How many letters there are, and so how many arrays. -/
def letterCount : Nat := 26

/-- How many names there are: the letters, and each letter with each digit. -/
def slotCount : Nat := letterCount + letterCount * 10

namespace Name

/-- The place of an ASCII letter in the alphabet, case ignored. -/
def letter? (c : Char) : Option Nat :=
  if 0x41 ≤ c.toNat ∧ c.toNat ≤ 0x5A then some (c.toNat - 0x41)
  else if 0x61 ≤ c.toNat ∧ c.toNat ≤ 0x7A then some (c.toNat - 0x61)
  else none

/-- The value of an ASCII digit. Digits of other scripts are not part of names. -/
def digit? (c : Char) : Option Nat :=
  if 0x30 ≤ c.toNat ∧ c.toNat ≤ 0x39 then some (c.toNat - 0x30) else none

/-- The slot of a letter with a digit. -/
def suffixedSlot (letter digit : Nat) : Nat :=
  letterCount + letter * 10 + digit

/-- The slot of the name at the start of a text, and how many characters the name has. -/
def scan? : List Char → Option (Nat × Nat)
  | [] => none
  | c :: rest =>
    match letter? c with
    | none => none
    | some letter =>
      match rest.head?.bind digit? with
      | some digit => some (suffixedSlot letter digit, 2)
      | none => some (letter, 1)

theorem letter?_lt {c : Char} {n : Nat} (h : letter? c = some n) : n < letterCount := by
  simp only [letterCount]
  grind [letter?]

theorem digit?_lt {c : Char} {n : Nat} (h : digit? c = some n) : n < 10 := by
  grind [digit?]

/-- A name in a text has a slot. -/
theorem scan?_slot_lt {s : List Char} {slot size : Nat} (h : scan? s = some (slot, size)) :
    slot < slotCount := by
  cases s with
  | nil => simp [scan?] at h
  | cons c rest =>
    simp only [scan?] at h
    cases hl : letter? c with
    | none => simp [hl] at h
    | some letter =>
      have bound := letter?_lt hl
      simp only [letterCount] at bound
      cases hd : rest.head?.bind digit? with
      | none =>
        simp only [hl, hd, Option.some.injEq, Prod.mk.injEq] at h
        simp only [slotCount, letterCount]
        omega
      | some digit =>
        obtain ⟨d, -, hdigit⟩ := Option.bind_eq_some_iff.1 hd
        have small := digit?_lt hdigit
        simp only [hl, hd, Option.some.injEq, Prod.mk.injEq, suffixedSlot, letterCount] at h
        simp only [slotCount, letterCount]
        omega

/-- The name at position `pos` of a text: its slot, and the position after it. Where no name starts
    the position stays. -/
def at? (text : List Char) (pos : Nat) : Option Nat × Nat :=
  match scan? (text.drop pos) with
  | some (slot, size) => (some slot, pos + size)
  | none => (none, pos)

/-- The letter with the given place in the alphabet. -/
def ofLetter (letter : Nat) : String :=
  String.singleton (Char.ofNat (0x41 + letter))

/-- The name with the given slot. -/
def ofSlot (slot : Nat) : String :=
  if slot < letterCount then ofLetter slot
  else ofLetter ((slot - letterCount) / 10) ++ toString ((slot - letterCount) % 10)

end Name

end LineBasic
