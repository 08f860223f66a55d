import OpcuaServer.Common.Result
import OpcuaServer.Library.CommandLine

/-!
# The command line of the daemon on Windows

The path of the daemon and its arguments are converted to UTF-16, quoted and joined to the command
line that `CreateProcessW` is given. The daemon splits it into the same arguments again.

`MultiByteToWideChar` is a parameter. It fails where its input is not UTF-8.
-/

namespace OpcuaServer

open CommandLine

/-! ### Building the command line -/

/-- `argument.find_first_of(L" \t\n\v\"") != npos` -/
def needsQuotes (argument : Wide) : Bool :=
  argument.any fun ch => [0x20, 0x09, 0x0A, 0x0B, quote].contains ch

/-- The loop of `quoteWindowsArgument` with what is appended after it. An argument below the limit of
the system has fewer backslashes than an `int` can count. -/
def quoteLoop : Wide → ℕ → Wide → Wide
  | [], backslashes, quoted =>
      quoted ++ List.replicate (backslashes * 2) backslash ++ [quote]
  | ch :: argument, backslashes, quoted =>
      if ch = backslash then quoteLoop argument (backslashes + 1) quoted
      else if ch = quote then
        quoteLoop argument 0 (quoted ++ List.replicate (backslashes * 2 + 1) backslash ++ [ch])
      else quoteLoop argument 0 (quoted ++ List.replicate backslashes backslash ++ [ch])

/-- `QuoteWindowsArgument` -/
def quoteWindowsArgument (argument : Wide) : Wide :=
  if argument = [] then [quote, quote]
  else if !needsQuotes argument then argument
  else quoteLoop argument 0 [quote]

section

variable (multiByteToWideChar : Bytes → Option Wide)

/-- `ToWideString`: the error is the exception that `StartUnlocked` catches. -/
def toWideString (value : Bytes) : Result Wide :=
  if value = [] then .ok []
  else
    match multiByteToWideChar value with
    | none => .error (ascii "failed to convert UTF-8 path to UTF-16")
    | some converted => .ok converted

/-- One iteration of the loop of `buildCommandLine`. -/
def appendArgument (commandLine : Wide) (arg : Bytes) : Result Wide := do
  return commandLine ++ [0x20] ++ quoteWindowsArgument (← toWideString multiByteToWideChar arg)

/-- `ProcessController::BuildCommandLine` -/
def buildCommandLine (executablePath : Bytes) (args : List Bytes) : Result Wide := do
  let commandLine := quoteWindowsArgument (← toWideString multiByteToWideChar executablePath)
  args.foldlM (appendArgument multiByteToWideChar) commandLine

end

/-! ### Reading an argument back -/

/-- What follows the quoting of an argument: the end of the line or a blank. -/
def Follows (rest : Wide) : Prop :=
  ∀ ch ∈ rest.head?, isBlank ch = true

theorem Follows.ne_quote {rest : Wide} (h : Follows rest) :
  ∀ ch ∈ rest.head?, ch ≠ quote
  := by
  rintro _ hch rfl
  cases h quote hch

/-- The loop appends to what has been quoted before it. -/
theorem quoteLoop_append (argument : Wide) (backslashes : ℕ) (quoted : Wide) :
  quoteLoop argument backslashes quoted = quoted ++ quoteLoop argument backslashes []
  := by
  induction argument generalizing backslashes quoted with
  | nil => simp [quoteLoop]
  | cons ch argument ih =>
    rw [quoteLoop, quoteLoop]
    split_ifs
    · apply ih
    · rw [ih, ih _ ([] ++ _ ++ _)]
      simp
    · rw [ih, ih _ ([] ++ _ ++ _)]
      simp

/-- Inside of quotation marks, what the loop writes is read as the backslashes it has counted and the
argument, and the quotation is closed. -/
theorem split_quoteLoop {rest : Wide} (hrest : Follows rest) (argument : Wide) (n : ℕ) (a : Wide) :
  split true 0 (some a) (quoteLoop argument n [] ++ rest)
    = split false 0 (some (a ++ List.replicate n backslash ++ argument)) rest
  := by
  induction argument generalizing n a with
  | nil =>
    rw [quoteLoop, List.nil_append, List.append_assoc, split_backslashes, Nat.zero_add,
      List.singleton_append, split_closing n hrest.ne_quote, List.append_nil]
  | cons ch argument ih =>
    rw [quoteLoop]
    split_ifs with hback hquote
    · rw [ih, hback, List.replicate_succ', List.append_assoc, List.append_assoc, List.append_assoc,
        List.singleton_append]
    · rw [quoteLoop_append, hquote, List.nil_append, List.append_assoc, List.append_assoc,
        split_backslashes, Nat.zero_add, List.singleton_append, split_literalQuote, ih,
        List.replicate_zero, List.append_nil, List.append_assoc _ [quote], List.singleton_append]
    · rw [quoteLoop_append, List.nil_append, List.append_assoc, List.append_assoc,
        split_backslashes, Nat.zero_add, List.singleton_append,
        split_char hback hquote (.inl rfl), ih, List.replicate_zero, List.append_nil,
        List.append_assoc _ [ch], List.singleton_append]

/-- An argument that needs no quotation marks has no blanks and no quotation marks. -/
theorem plain_of_not_needsQuotes {argument : Wide} (h : needsQuotes argument = false) :
  ∀ ch ∈ argument, ch ≠ quote ∧ isBlank ch = false
  := by
  intro ch hch
  have hno := List.any_eq_false.mp h ch hch
  simp only [List.contains_eq_mem, List.mem_cons, List.not_mem_nil, or_false, decide_eq_true_eq,
    not_or] at hno
  obtain ⟨hspace, htab, -, -, hquote⟩ := hno
  use hquote
  simp [isBlank, hspace, htab]

/-- A quoted argument is read back. -/
theorem split_quoteWindowsArgument {rest : Wide} (hrest : Follows rest) (argument : Wide) :
  split false 0 none (quoteWindowsArgument argument ++ rest) = argument :: split false 0 none rest
  := by
  rw [quoteWindowsArgument]
  split_ifs with hnil hneeds
  · subst hnil
    rw [List.cons_append, split_opening, List.singleton_append, split_closing 0 hrest.ne_quote,
      split_end hrest]
    rfl
  · have hplain := plain_of_not_needsQuotes (by simpa using hneeds)
    obtain ⟨ch, cs, rfl⟩ := List.exists_cons_of_ne_nil hnil
    have hch := hplain ch List.mem_cons_self
    rw [List.cons_append, split_none hch.1 hch.2, ← List.cons_append, split_plain hplain hrest]
    rfl
  · rw [quoteLoop_append, List.append_assoc, List.singleton_append, split_opening,
      split_quoteLoop hrest, split_end hrest]
    simp

/-- What the loop writes for a name without quotation marks is some name and the closing quotation
mark. -/
theorem exists_quoteLoop {argument : Wide} (h : quote ∉ argument) (backslashes : ℕ) :
  ∃ w, quote ∉ w ∧ quoteLoop argument backslashes [] = w ++ [quote]
  := by
  have hreplicate : ∀ n, quote ∉ List.replicate n backslash := by
    intro n hmem
    cases List.eq_of_mem_replicate hmem
  induction argument generalizing backslashes with
  | nil => exact ⟨_, hreplicate _, rfl⟩
  | cons ch argument ih =>
    rw [List.mem_cons, not_or] at h
    rw [quoteLoop]
    split_ifs with hback hquote
    · apply ih h.2
    · apply absurd hquote.symm h.1
    · obtain ⟨w, hw, heq⟩ := ih h.2 0
      rw [quoteLoop_append, heq, ← List.append_assoc]
      refine ⟨_, ?_, rfl⟩
      simp only [List.mem_append, not_or, List.mem_singleton]
      exact ⟨⟨⟨List.not_mem_nil, hreplicate _⟩, h.1⟩, hw⟩

/-- The quoted name of the program is passed over. -/
theorem afterProgram_quoteWindowsArgument {rest : Wide} (hrest : Follows rest) {argument : Wide}
    (h : quote ∉ argument) :
  ∃ program, afterProgram false (quoteWindowsArgument argument ++ rest) = (program, rest)
  := by
  rw [quoteWindowsArgument]
  split_ifs with hnil hneeds
  · use []
    rfl
  · use argument
    apply afterProgram_plain (plain_of_not_needsQuotes (by simpa using hneeds)) hrest
  · obtain ⟨w, hw, heq⟩ := exists_quoteLoop h 0
    use w
    rw [quoteLoop_append, heq, List.append_assoc, List.append_assoc, List.singleton_append,
      List.singleton_append, afterProgram, if_pos rfl]
    apply afterProgram_inQuotes hw

/-! ### The whole line -/

/-- The arguments as they follow the name of the program. -/
def quotedArguments (wides : List Wide) : Wide :=
  wides.flatMap fun wide => 0x20 :: quoteWindowsArgument wide

theorem follows_quotedArguments (wides : List Wide) :
  Follows (quotedArguments wides)
  := by
  cases wides with
  | nil => rintro ch ⟨⟩
  | cons wide wides =>
    rintro ch ⟨⟩
    rfl

theorem split_quotedArguments (wides : List Wide) :
  split false 0 none (quotedArguments wides) = wides
  := by
  induction wides with
  | nil => rfl
  | cons wide wides ih =>
    rw [quotedArguments, List.flatMap_cons, List.cons_append, split_blank rfl]
    change split false 0 none (quoteWindowsArgument wide ++ quotedArguments wides) = _
    rw [split_quoteWindowsArgument (follows_quotedArguments wides), ih]

section

variable {multiByteToWideChar : Bytes → Option Wide}

/-- `wides` are the converted arguments. -/
def Converted (multiByteToWideChar : Bytes → Option Wide) (args : List Bytes) (wides : List Wide) :
    Prop :=
  List.Forall₂ (fun arg wide => toWideString multiByteToWideChar arg = .ok wide) args wides

theorem foldlM_appendArgument {args : List Bytes} {commandLine line : Wide} :
  args.foldlM (appendArgument multiByteToWideChar) commandLine = .ok line ↔
    ∃ wides, Converted multiByteToWideChar args wides ∧ line = commandLine ++ quotedArguments wides
  := by
  induction args generalizing commandLine with
  | nil =>
    constructor
    · rintro ⟨⟩
      exact ⟨[], .nil, (List.append_nil _).symm⟩
    · rintro ⟨wides, ⟨⟩, rfl⟩
      rw [quotedArguments, List.flatMap_nil, List.append_nil]
      rfl
  | cons arg args ih =>
    rw [List.foldlM_cons, Result.bind_eq_ok_iff]
    constructor
    · rintro ⟨commandLine', happend, hfold⟩
      obtain ⟨wide, hwide, heq⟩ := Result.bind_eq_ok_iff.mp happend
      cases heq
      obtain ⟨wides, hwides, rfl⟩ := ih.mp hfold
      refine ⟨wide :: wides, .cons hwide hwides, ?_⟩
      simp [quotedArguments]
    · rintro ⟨wides, hwides, rfl⟩
      cases hwides with
      | @cons _ wide _ wides hwide hwides =>
        refine ⟨commandLine ++ [0x20] ++ quoteWindowsArgument wide, ?_, ?_⟩
        · rw [appendArgument, hwide]
          rfl
        · apply ih.mpr
          refine ⟨wides, hwides, ?_⟩
          simp [quotedArguments]

/-- The command line is the quoted name of the program and the quoted arguments, where all of them
can be converted. -/
theorem buildCommandLine_eq_ok_iff {executablePath : Bytes} {args : List Bytes} {line : Wide} :
  buildCommandLine multiByteToWideChar executablePath args = .ok line ↔
    ∃ path wides, toWideString multiByteToWideChar executablePath = .ok path ∧
      Converted multiByteToWideChar args wides ∧
      line = quoteWindowsArgument path ++ quotedArguments wides
  := by
  rw [buildCommandLine, Result.bind_eq_ok_iff]
  constructor
  · rintro ⟨path, hpath, hfold⟩
    obtain ⟨wides, hwides, rfl⟩ := foldlM_appendArgument.mp hfold
    exact ⟨path, wides, hpath, hwides, rfl⟩
  · rintro ⟨path, wides, hpath, hwides, rfl⟩
    exact ⟨path, hpath, foldlM_appendArgument.mpr ⟨wides, hwides, rfl⟩⟩

/-- The conversion writes the ASCII characters as themselves, and no others as them. -/
def KeepsAscii (multiByteToWideChar : Bytes → Option Wide) : Prop :=
  ∀ value wide, multiByteToWideChar value = some wide → ∀ ch : UInt8, ch < 0x80 →
    (ch.toUInt16 ∈ wide ↔ ch ∈ value)

theorem mem_toWideString (hascii : KeepsAscii multiByteToWideChar) {value : Bytes} {wide : Wide}
    (hwide : toWideString multiByteToWideChar value = .ok wide) (ch : UInt8) (hch : ch < 0x80) :
  ch.toUInt16 ∈ wide ↔ ch ∈ value
  := by
  rw [toWideString] at hwide
  split at hwide
  · next hnil =>
    cases hwide
    rw [hnil]
    simp
  · split at hwide
    · cases hwide
    · next converted hconverted =>
      cases hwide
      apply hascii value wide hconverted ch hch

/-- Quoting adds no character other than quotation marks and backslashes. -/
theorem mem_quoteLoop {ch : UInt16} {argument : Wide} {backslashes : ℕ}
    (h : ch ∈ quoteLoop argument backslashes []) :
  ch = quote ∨ ch = backslash ∨ ch ∈ argument
  := by
  induction argument generalizing backslashes with
  | nil =>
    rw [quoteLoop, List.nil_append, List.mem_append, List.mem_singleton] at h
    rcases h with h | h
    · exact .inr (.inl (List.eq_of_mem_replicate h))
    · exact .inl h
  | cons c argument ih =>
    rw [quoteLoop] at h
    split_ifs at h
    · rcases ih h with h | h | h
      · exact .inl h
      · exact .inr (.inl h)
      · exact .inr (.inr (List.mem_cons_of_mem _ h))
    all_goals
      rw [quoteLoop_append, List.nil_append] at h
      simp only [List.mem_append, List.mem_singleton] at h
      rcases h with (h | rfl) | h
      · exact .inr (.inl (List.eq_of_mem_replicate h))
      · exact .inr (.inr List.mem_cons_self)
      · rcases ih h with h | h | h
        · exact .inl h
        · exact .inr (.inl h)
        · exact .inr (.inr (List.mem_cons_of_mem _ h))

theorem mem_quoteWindowsArgument {ch : UInt16} {argument : Wide}
    (h : ch ∈ quoteWindowsArgument argument) :
  ch = quote ∨ ch = backslash ∨ ch ∈ argument
  := by
  rw [quoteWindowsArgument] at h
  split_ifs at h
  · simp only [List.mem_cons, List.not_mem_nil, or_false, or_self] at h
    exact .inl h
  · exact .inr (.inr h)
  · rw [quoteLoop_append, List.mem_append, List.mem_singleton] at h
    rcases h with h | h
    · exact .inl h
    · apply mem_quoteLoop h

/-- Strings without NUL are converted and quoted to a string without NUL. -/
theorem nul_not_mem_quoteWindowsArgument (hascii : KeepsAscii multiByteToWideChar) {value : Bytes}
    {wide : Wide} (hwide : toWideString multiByteToWideChar value = .ok wide) (hnul : 0 ∉ value) :
  0 ∉ quoteWindowsArgument wide
  := by
  intro hmem
  rcases mem_quoteWindowsArgument hmem with h | h | h
  · cases h
  · cases h
  · apply hnul ((mem_toWideString hascii hwide 0 (by decide)).mp h)

theorem nul_not_mem_quotedArguments (hascii : KeepsAscii multiByteToWideChar) {args : List Bytes}
    {wides : List Wide} (hwides : Converted multiByteToWideChar args wides)
    (hnul : ∀ arg ∈ args, 0 ∉ arg) :
  0 ∉ quotedArguments wides
  := by
  induction hwides with
  | nil => exact List.not_mem_nil
  | @cons arg wide args wides hwide _ ih =>
    rw [quotedArguments, List.flatMap_cons, List.mem_append, List.mem_cons]
    rintro ((h | h) | h)
    · cases h
    · apply nul_not_mem_quoteWindowsArgument hascii hwide (hnul arg List.mem_cons_self) h
    · apply ih (fun arg' h' => hnul arg' (List.mem_cons_of_mem _ h')) h

end

/-- `MultiByteToWideChar` where all characters are ASCII. -/
def asciiToWide (value : Bytes) : Option Wide :=
  if value.all (· < 0x80) then some (value.map UInt8.toUInt16) else none

theorem keepsAscii_asciiToWide :
  KeepsAscii asciiToWide
  := by
  intro value wide hwide ch _
  rw [asciiToWide] at hwide
  split at hwide
  · cases hwide
    simp only [List.mem_map, UInt8.toUInt16_inj, exists_eq_right]
  · cases hwide

end OpcuaServer
