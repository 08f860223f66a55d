import Mathlib.Data.List.Basic
import Mathlib.Tactic.Common

/-!
# Command lines on Windows

A program on Windows is given one string, and splits it into its arguments by the rules of the
Microsoft C runtime. `splitCommandLine line` is the list of the arguments, the name of the program
first.

The lemmas say how `split` reads runs of backslashes, the quotation marks and the other characters
of an argument, and where an argument ends.
-/

namespace CommandLine

/-- The code units of a string of `wchar_t`. -/
abbrev Wide := List UInt16

def quote : UInt16 := 0x22

def backslash : UInt16 := 0x5C

/-- A space or a tab. -/
def isBlank (ch : UInt16) : Bool :=
  ch == 0x20 || ch == 0x09

/-- What is left of the line after the name of the program, which ends at its closing quotation
mark or at the first blank. Backslashes are nothing special in it. -/
def afterProgram : Bool → Wide → Wide × Wide
  | _, [] => ([], [])
  | inQuotes, ch :: rest =>
      if ch = quote then
        if inQuotes then ([], rest) else afterProgram true rest
      else if !inQuotes && isBlank ch then ([], ch :: rest)
      else
        let (program, rest) := afterProgram inQuotes rest
        (ch :: program, rest)

/-- The arguments of the rest of a line. `inQuotes` tells whether the line is inside of quotation
marks, `backslashes` counts the backslashes just before, and `argument` is the argument read so far
without them, `none` between two arguments.

Before a quotation mark, every two backslashes are one, and one that is left over makes the
quotation mark literal. Of two quotation marks inside of quotation marks, the second is literal. -/
def split (inQuotes : Bool) (backslashes : ℕ) (argument : Option Wide) : Wide → List Wide
  | [] =>
      match argument with
      | none => []
      | some a => [a ++ List.replicate backslashes backslash]
  | ch :: rest =>
      let a := argument.getD []
      if ch = backslash then split inQuotes (backslashes + 1) (some a) rest
      else if ch = quote then
        let a := a ++ List.replicate (backslashes / 2) backslash
        if backslashes % 2 = 1 then split inQuotes 0 (some (a ++ [quote])) rest
        else
          match inQuotes, rest with
          | true, next :: rest' =>
              if next = quote then split true 0 (some (a ++ [quote])) rest'
              else split false 0 (some a) (next :: rest')
          | inQuotes, rest => split (!inQuotes) 0 (some a) rest
      else if !inQuotes && isBlank ch then
        match argument with
        | none => split false 0 none rest
        | some a => (a ++ List.replicate backslashes backslash) :: split false 0 none rest
      else split inQuotes 0 (some (a ++ List.replicate backslashes backslash ++ [ch])) rest

/-- The arguments of a command line, the name of the program first. -/
def splitCommandLine (line : Wide) : List Wide :=
  let (program, rest) := afterProgram false line
  program :: split false 0 none rest

-- The line `p "a \""` has the arguments `p` and `a "`.
example :
  splitCommandLine [0x70, 0x20, 0x22, 0x61, 0x20, 0x5C, 0x22, 0x22] = [[0x70], [0x61, 0x20, 0x22]]
  := by
  simp [splitCommandLine, afterProgram, split, quote, backslash, isBlank]

/-! ### Rules -/

section

variable {inQuotes : Bool} {backslashes : ℕ} {a : Wide} {ch : UInt16} {rest : Wide}

/-- Backslashes are counted. -/
theorem split_backslashes (k : ℕ) :
  split inQuotes backslashes (some a) (List.replicate k backslash ++ rest)
    = split inQuotes (backslashes + k) (some a) rest
  := by
  induction k generalizing backslashes with
  | zero => rfl
  | succ k ih =>
    rw [List.replicate_succ, List.cons_append, split, if_pos rfl, Option.getD_some, ih,
      Nat.add_assoc, Nat.add_comm 1 k]

/-- A character that is nothing special is literal, and so are the backslashes before it. -/
theorem split_char (hback : ch ≠ backslash) (hquote : ch ≠ quote)
    (hblank : inQuotes = true ∨ isBlank ch = false) :
  split inQuotes backslashes (some a) (ch :: rest)
    = split inQuotes 0 (some (a ++ List.replicate backslashes backslash ++ [ch])) rest
  := by
  have hno : (!inQuotes && isBlank ch) = false := by
    rcases hblank with rfl | h
    · rfl
    · rw [h, Bool.and_false]
  rw [split, if_neg hback, if_neg hquote, hno]
  rfl

/-- An odd number of backslashes makes a quotation mark literal. -/
theorem split_literalQuote (n : ℕ) :
  split inQuotes (n * 2 + 1) (some a) (quote :: rest)
    = split inQuotes 0 (some (a ++ List.replicate n backslash ++ [quote])) rest
  := by
  have hdiv : (n * 2 + 1) / 2 = n := by omega
  rw [split, if_neg (by decide), if_pos rfl, if_pos (by omega), hdiv]
  rfl

/-- A quotation mark that starts an argument. -/
theorem split_opening :
  split false 0 none (quote :: rest) = split true 0 (some []) rest
  := by
  rw [split, if_neg (by decide), if_pos rfl, if_neg (by decide)]
  cases rest <;> rfl

/-- An even number of backslashes are half as many, and the quotation mark after them closes the
quotation where no other follows. -/
theorem split_closing (n : ℕ) (hrest : ∀ ch ∈ rest.head?, ch ≠ quote) :
  split true (n * 2) (some a) (quote :: rest)
    = split false 0 (some (a ++ List.replicate n backslash)) rest
  := by
  have hdiv : n * 2 / 2 = n := by omega
  rw [split, if_neg (by decide), if_pos rfl, if_neg (by omega), hdiv]
  cases rest with
  | nil => rfl
  | cons next rest => exact if_neg (hrest next rfl)

/-- An argument ends at a blank and at the end of the line. -/
theorem split_end (hrest : ∀ ch ∈ rest.head?, isBlank ch = true) :
  split false backslashes (some a) rest
    = (a ++ List.replicate backslashes backslash) :: split false 0 none rest
  := by
  cases rest with
  | nil => rfl
  | cons ch rest =>
    have hblank := hrest ch rfl
    have hback : ch ≠ backslash := by
      rintro rfl
      cases hblank
    have hquote : ch ≠ quote := by
      rintro rfl
      cases hblank
    simp only [split, if_neg hback, if_neg hquote, hblank]
    rfl

/-- Blanks between two arguments are passed over. -/
theorem split_blank (hblank : isBlank ch = true) :
  split false 0 none (ch :: rest) = split false 0 none rest
  := by
  have hback : ch ≠ backslash := by
    rintro rfl
    cases hblank
  have hquote : ch ≠ quote := by
    rintro rfl
    cases hblank
  rw [split, if_neg hback, if_neg hquote, hblank]
  rfl

/-- Characters that are no quotation marks and no blanks are literal, backslashes as well. -/
theorem split_plain {w : Wide} (hw : ∀ ch ∈ w, ch ≠ quote ∧ isBlank ch = false)
    (hrest : ∀ ch ∈ rest.head?, isBlank ch = true) :
  split false backslashes (some a) (w ++ rest)
    = (a ++ List.replicate backslashes backslash ++ w) :: split false 0 none rest
  := by
  induction w generalizing backslashes a with
  | nil => rw [List.append_nil, List.nil_append, split_end hrest]
  | cons ch w ih =>
    obtain ⟨hquote, hblank⟩ := hw ch List.mem_cons_self
    have hw' := fun c hc => hw c (List.mem_cons_of_mem ch hc)
    by_cases hback : ch = backslash
    · subst hback
      rw [List.cons_append, split, if_pos rfl, Option.getD_some, ih hw', List.replicate_succ',
        ← List.append_assoc, List.append_assoc, List.singleton_append]
    · rw [List.cons_append, split_char hback hquote (.inr hblank), ih hw', List.replicate_zero,
        List.append_nil, List.append_assoc, List.singleton_append]

/-- An argument that is no quotation starts with its first character. -/
theorem split_none (hquote : ch ≠ quote) (hblank : isBlank ch = false) :
  split false 0 none (ch :: rest) = split false 0 (some []) (ch :: rest)
  := by
  rw [split, split, if_neg hquote, if_neg hquote, hblank]
  rfl

end

/-! ### The name of the program -/

/-- Inside of quotation marks, the name ends at the next quotation mark. -/
theorem afterProgram_inQuotes {w rest : Wide} (hw : quote ∉ w) :
  afterProgram true (w ++ quote :: rest) = (w, rest)
  := by
  induction w with
  | nil => rfl
  | cons ch w ih =>
    rw [List.mem_cons, not_or] at hw
    rw [List.cons_append, afterProgram, if_neg (Ne.symm hw.1), ih hw.2]
    rfl

/-- Outside of quotation marks, the name ends at the first blank. -/
theorem afterProgram_plain {w rest : Wide} (hw : ∀ ch ∈ w, ch ≠ quote ∧ isBlank ch = false)
    (hrest : ∀ ch ∈ rest.head?, isBlank ch = true) :
  afterProgram false (w ++ rest) = (w, rest)
  := by
  induction w with
  | nil =>
    cases rest with
    | nil => rfl
    | cons ch rest =>
      have hblank := hrest ch rfl
      have hquote : ch ≠ quote := by
        rintro rfl
        cases hblank
      rw [List.nil_append, afterProgram, if_neg hquote, hblank]
      rfl
  | cons ch w ih =>
    obtain ⟨hquote, hblank⟩ := hw ch List.mem_cons_self
    rw [List.cons_append, afterProgram, if_neg hquote, hblank,
      ih fun c hc => hw c (List.mem_cons_of_mem ch hc)]
    rfl

end CommandLine
