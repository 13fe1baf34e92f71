import RhsCore.Lib.CString

/-!
# The command line

`cli_app.c`: characters are put into a line of 64 bytes until a carriage return, and then
the line is looked up as a command.  Nothing looks at how full the line is.

## Main definitions

* `Cli`, `cliAlloc` — the line, with what was typed and looked up.
* `cliGetc`, `cliHandleEnter`, `cliProcessInput` — one character.
* `lookupOf` — what is to be looked up for the characters that were typed.
-/

namespace RhsCore.CliApp

/-- The end of a string. -/
def nul : Char := '\x00'

def cliSymbolAsciiSOH : Char := '\x01'
def cliSymbolAsciiETX : Char := '\x03'
def cliSymbolAsciiEOT : Char := '\x04'
def cliSymbolAsciiBackspace : Char := '\x08'
def cliSymbolAsciiTab : Char := '\x09'
def cliSymbolAsciiCR : Char := '\x0d'
def cliSymbolAsciiEsc : Char := '\x1b'
def cliSymbolAsciiDel : Char := '\x7f'

/-- `MAX_LINE_LENGTH`. -/
abbrev maxLineLength : ℕ := 64

/-- A callback, and the context it is called with. -/
structure CliCommand where
  callback : ℕ
  context : ℕ
  deriving DecidableEq, Repr

/-- The registered commands. -/
abbrev CliCommandDict := CString → Option CliCommand

/-- A carriage return: what was looked up, and the command that was called with which
arguments, if there was one. -/
structure Lookup where
  key : CString
  called : Option (CliCommand × Option CString)
  deriving DecidableEq, Repr

/-- The line, and the flag of `cli_getc`. -/
structure Cli where
  enter : Bool
  cursorPosition : UInt8
  line : Vector Char maxLineLength
  /-- A byte outside the line was written or read. -/
  overrun : Bool
  lookups : List Lookup
  /-- The printable characters since the last carriage return, and the lookups that should
  have been made. -/
  typed : CString
  expected : List Lookup

/-- `cli_alloc`. -/
def cliAlloc : Cli where
  enter := false
  cursorPosition := 0
  line := Vector.replicate maxLineLength nul
  overrun := false
  lookups := []
  typed := []
  expected := []

/-- `cli_getc`, with what `getchar` returns: a zero is a carriage return, once after other
characters. -/
def cliGetc (s : Cli) (c : Char) : Char × Cli :=
  if c ≠ nul then (c, { s with enter := true })
  else if s.enter then (cliSymbolAsciiCR, { s with enter := false })
  else (c, s)

/-- The string that starts at a position of the line. -/
def Cli.string (s : Cli) (i : ℕ) : CString := (s.line.toList.drop i).takeWhile (· ≠ nul)

/-- `cli_reset`. -/
def cliReset (s : Cli) : Cli :=
  { s with cursorPosition := 0, line := Vector.replicate maxLineLength nul }

/-- `cli_handle_enter`; a line without an end is read beyond its bounds. -/
def cliHandleEnter (commands : CliCommandDict) (s : Cli) : Cli :=
  let terminated := s.line.toList.contains nul
  let (s, args) :=
    match (s.string 0).findIdx? (· = ' ') with
    | some i =>
        let s := { s with line := s.line.setIfInBounds i nul }
        (s, some (s.string (i + 1)))
    | none => (s, none)
  let key := s.string 0
  -- an unknown command is only logged
  let called := (commands key).map fun command => (command, args)
  cliReset { s with
    overrun := s.overrun || !terminated
    lookups := s.lookups ++ [{ key := key, called := called }] }

/-- What is to be looked up for the characters that were typed. -/
def lookupOf (commands : CliCommandDict) (typed : CString) : Lookup where
  key := typed.takeWhile (· ≠ ' ')
  called := (commands (typed.takeWhile (· ≠ ' '))).map fun command =>
    (command, if ' ' ∈ typed then some (typed.dropWhile (· ≠ ' ')).tail else none)

/-- A character that is put into the line. -/
def printable (c : Char) : Bool := ' ' ≤ c && c < '\x7f'

/-- `cli_process_input`. -/
def cliProcessInput (commands : CliCommandDict) (s : Cli) (c : Char) : Cli :=
  let (inChr, s) := cliGetc s c
  if inChr = cliSymbolAsciiTab then s
  else if inChr = cliSymbolAsciiSOH then s
  else if inChr = cliSymbolAsciiETX then s
  else if inChr = cliSymbolAsciiEOT then s
  else if inChr = cliSymbolAsciiEsc then s
  else if inChr = cliSymbolAsciiBackspace ∨ inChr = cliSymbolAsciiDel then s
  else if inChr = cliSymbolAsciiCR then
    { cliHandleEnter commands s with
      typed := []
      expected := s.expected ++ [lookupOf commands s.typed] }
  else if printable inChr then
    { s with
      overrun := s.overrun || decide (maxLineLength ≤ s.cursorPosition.toNat)
      line := s.line.setIfInBounds s.cursorPosition.toNat inChr
      cursorPosition := s.cursorPosition + 1
      typed := s.typed ++ [inChr] }
  else s

end RhsCore.CliApp
