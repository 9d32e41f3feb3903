/-
  IniParser/Load.lean --- reading an ini file with `iniparser.c`.

  `iniparser_load` reads lines into a buffer with `fgets`, behind what an earlier line that
  ended with a backslash has left there.  `iniparser_line` takes a line apart with `sscanf`.
  Each section and each value goes into the dictionary, and a syntax error is counted in the
  variable that the next result of `dictionary_set` overwrites.  Two things go outside the
  buffers: a line of blanks, for which the byte in front of the buffer is read, and a section
  and a key that are together too long for the whole key.
-/
import DragonDevice.IniParser.Dictionary
import DragonDevice.Dsp.Expr
import DragonDevice.Lib.DepthFirst
import DragonDevice.Lib.Scanf

set_option autoImplicit false

namespace DragonDevice.IniParser

open DragonDevice.Lib
open DragonDevice.Dsp (isSpace)

/-! ## Texts -/

/-- `ASCIILINESZ` -/
def asciiLineSz : Nat := 1024

/-- `strlwc`, which cuts off what does not fit into its buffer. -/
def strlwc (s : List Char) : List Char := (s.take asciiLineSz).map Char.toLower

/-- `strstrip` -/
def strstrip (s : List Char) : List Char := strip isSpace s

/-- A buffer up to its first NUL. -/
def cString (buffer : List Char) : List Char := buffer.takeWhile fun c => c != '\x00'

/-! ## One line -/

/-- `line_status`, with what the line says. -/
inductive LineStatus where
  | error
  | empty
  | comment
  | sectionName (name : List Char)
  | value (key val : List Char)
  deriving DecidableEq

/-- `"[%[^]]"` -/
def sectionFormat : List (Directive Char) := [.lit '[', .scan (· != ']')]

/-- `"%[^=] = "`, and what follows it. -/
def keyFormat (rest : List (Directive Char)) : List (Directive Char) :=
  [.scan (· != '='), .space, .lit '=', .space] ++ rest

/-- The formats of a key with a value: quoted, quoted by apostrophes, and up to a comment. -/
def valueFormats : List (List (Directive Char)) :=
  [keyFormat [.lit '"', .scan (· != '"'), .lit '"'],
    keyFormat [.lit '\'', .scan (· != '\''), .lit '\''],
    keyFormat [.scan fun c => c != ';' && c != '#']]

/-- The formats of a key without a value. -/
def emptyFormats : List (List (Directive Char)) :=
  [keyFormat [.scan fun c => c == ';' || c == '#'],
    [.scan (· != '='), .space, .scan (· == '=')]]

/-- Two conversions, if none failed. -/
def bothScanned : List (List Char) → Option (List Char × List Char)
  | [key, value] => some (key, value)
  | _ => none

/-- `sscanf` with a format of two conversions. -/
def scanPair (line : List Char) (format : List (Directive Char)) :
    Option (List Char × List Char) :=
  bothScanned (sscanf isSpace format line)

/-- A value, where a pair of quotes stands for no text. -/
def unquote (value : List Char) : List Char :=
  if value = ['"', '"'] ∨ value = ['\'', '\''] then [] else value

/-- `iniparser_line`, where `section` holds the name of the section so far. -/
def iniparserLine (sectionName inputLine : List Char) : LineStatus :=
  let line := strstrip inputLine
  if line.length < 1 then .empty
  else if line.head? = some '#' ∨ line.head? = some ';' then .comment
  else if line.head? = some '[' ∧ line.getLast? = some ']' then
    .sectionName (strlwc (strstrip ((sscanf isSpace sectionFormat line).headD sectionName)))
  else
    match valueFormats.findSome? (scanPair line) with
    | some (key, value) => .value (strlwc (strstrip key)) (unquote (strstrip value))
    | none =>
        match emptyFormats.findSome? (scanPair line) with
        | some (key, _) => .value (strlwc (strstrip key)) []
        | none => .error

/-! ## The file -/

/-- `fgets` for so many characters: what it reads, and what is left. -/
def fgets : Nat → List Char → List Char × List Char
  | 0, text => ([], text)
  | _ + 1, [] => ([], [])
  | room + 1, c :: rest =>
      if c = '\n' then ([c], rest) else (c :: (fgets room rest).1, (fgets room rest).2)

/-- The variables of `iniparser_load`; `pending` is `line` up to `last`. -/
structure LoadState where
  dict : Dictionary
  sectionName : List Char
  pending : List Char
  errs : Nat
  deriving DecidableEq

/-- The whole key of a value. -/
def valueKey (sectionName key : List Char) : List Char := sectionName ++ ':' :: key

/-- The result of `dictionary_set`, which becomes the count of errors. -/
def LoadState.store (st : LoadState) (key : List Char) (val : Option (List Char)) :
    Outcome LoadState :=
  match dictionarySet st.dict key val with
  | some dict => .done { st with dict := dict, errs := 0 }
  | none => .running

/-- The `switch` over the status of a line. -/
def loadLine (st : LoadState) (line : List Char) : Outcome LoadState :=
  match iniparserLine st.sectionName line with
  | .empty => .done st
  | .comment => .done st
  | .sectionName name => { st with sectionName := name }.store name none
  | .value key val =>
      if (valueKey st.sectionName key).length ≤ asciiLineSz then
        st.store (valueKey st.sectionName key) (some val)
      else .fault
  | .error => .done { st with errs := st.errs + 1 }

/-- The body of the loop, with what `fgets` has read. -/
def loadChunk (st : LoadState) (chunk : List Char) : Outcome LoadState :=
  match cString (st.pending ++ chunk) with
  -- `line[-1]` is read
  | [] => .fault
  | [_] => .done st
  | c :: c' :: rest =>
      if (c :: c' :: rest).getLast? = some '\n' then
        let line := (c :: c' :: rest).rdropWhile isSpace
        match line.getLast? with
        -- here as well
        | none => .fault
        | some last =>
            if last = '\\' then .done { st with pending := line.dropLast }
            else loadLine { st with pending := [] } line
      else .failed

/-- The loop of `iniparser_load`. -/
def loadLoop : Nat → List Char → LoadState → Outcome LoadState
  | 0, _, _ => .running
  | fuel + 1, text, st =>
      if text = [] then .done st
      else
        let read := fgets (asciiLineSz - st.pending.length - 1) text
        (loadChunk st read.1).bind fun st' => loadLoop fuel read.2 st'

/-- The variables when the loop begins. -/
def loadStart : LoadState := ⟨dictionaryNew 0, [], [], 0⟩

/-- `iniparser_load` for the text of a file; a failure is `NULL`. -/
def iniparserLoad (text : List Char) : Outcome Dictionary :=
  (loadLoop (text.length + 1) text loadStart).bind fun st =>
    if st.errs = 0 then .done st.dict else .failed

end DragonDevice.IniParser
