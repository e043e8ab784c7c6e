/-! # Terminal text

Coloured terminal output wraps a text between a select-graphic-rendition sequence, such as
`ESC[1;31m` for bold red, and the reset sequence `ESC[0m`. A reset inside the text would end the
colour early, so the colour is switched on again after each one.

Plain text is recovered by reading the text as a terminal would and keeping only what it would
print: every escape sequence is dropped (control sequences `ESC[...`, operating system commands
`ESC]...` up to a bell or `ESC\`, device control and other strings), and so is every C0 and C1
control character except the line feed, also outside escape sequences. Inside control and
escape sequences a line feed is still carried out; inside strings it is swallowed.

A terminal reads bytes, not characters. Every byte of a character above ASCII is at least
0x80, and no state but one gives such a byte a meaning, so reading whole characters gives the
same result with one exception. Inside a device control string the byte 0x9C is the string
terminator, and it may be a continuation byte of a character: `Ĝ` is `C4 9C`. The string then
ends inside the character, and the bytes left of it are stray continuation bytes read in the
ground state, where those up to 0x9F are C1 controls and the others are invalid text, printed
as the replacement character.
-/

namespace ScriptLowering.Text

/-- The colours the diagnostics use. -/
inductive Style where
  | boldRed
  | blue
  | white
  deriving DecidableEq, Repr, Inhabited

/-- The escape sequence that ends every colour. -/
def resetSequence : String := "\x1b[0m"

namespace Style

/-- The escape sequence that switches a colour on. -/
def sequence : Style → String
  | .boldRed => "\x1b[1;31m"
  | .blue => "\x1b[34m"
  | .white => "\x1b[37m"

/-- A text with a colour's sequence written again after each reset sequence in it. -/
def reapply (style : Style) : List Char → List Char
  | [] => []
  | '\x1b' :: '[' :: '0' :: 'm' :: rest =>
    '\x1b' :: '[' :: '0' :: 'm' :: (style.sequence.toList ++ reapply style rest)
  | c :: rest => c :: reapply style rest

/-- A text in a colour; each reset inside the text switches the colour on again. -/
def paint (style : Style) (text : String) : String :=
  style.sequence ++ String.ofList (style.reapply text.toList) ++ resetSequence

end Style

/-- A text in a colour when colours are on, and as it is otherwise. -/
def paintIf (colored : Bool) (style : Style) (text : String) : String :=
  if colored then style.paint text else text

/-- The states of a terminal reading escape sequences. -/
inductive ReadState where
  | ground
  | escape
  | escapeIntermediate
  | csiEntry
  | csiParam
  | csiIntermediate
  | csiIgnore
  | dcsEntry
  | dcsParam
  | dcsIntermediate
  | dcsPassthrough
  | dcsIgnore
  | oscString
  | stringIgnore
  deriving DecidableEq, Repr, Inhabited

/-- Whether a code is a C0 control that a terminal carries out wherever it stands. -/
def isExecuted (code : Nat) : Bool :=
  code ≤ 0x17 || code == 0x19 || (0x1C ≤ code && code ≤ 0x1F)

/-- The output of carrying out a control: a line feed is written, all else is not. -/
def executed (code : Nat) : List Char := if code == 0x0A then ['\n'] else []

/-- The next state after a code that no state handles on its own: cancel and substitute return
to the ground state, escape starts a sequence, and all else leaves the state alone. -/
def anywhere (state : ReadState) (code : Nat) : ReadState :=
  if code == 0x18 || code == 0x1A then .ground
  else if code == 0x1B then .escape
  else state

/-- The continuation bytes of the UTF-8 encoding of a code point, first to last; the lead byte
is below 0x80 or at least 0xC2, so it is never a terminator. -/
def continuationBytes (code : Nat) : List Nat :=
  if code < 0x80 then []
  else if code < 0x800 then [0x80 + code % 64]
  else if code < 0x10000 then [0x80 + code / 64 % 64, 0x80 + code % 64]
  else [0x80 + code / 4096 % 64, 0x80 + code / 64 % 64, 0x80 + code % 64]

/-- What the ground state prints of stray continuation bytes: nothing for the C1 controls up
to 0x9F, and a replacement character for each byte above. -/
def strayBytes (bytes : List Nat) : List Char :=
  bytes.filterMap fun byte => if byte < 0xA0 then none else some '\uFFFD'

/-- One step of reading: the character's code in a state gives what is written and the next
state. Characters above ASCII inside a sequence leave it unchanged, except that one with the
byte 0x9C in its encoding ends a device control string there. -/
def readStep (state : ReadState) (c : Char) : List Char × ReadState :=
  let code := c.toNat
  match state with
  | .ground =>
    if code == 0x1B then ([], .escape)
    else if code < 0x20 then (executed code, .ground)
    else if 0x80 ≤ code && code ≤ 0x9F then ([], .ground)
    else ([c], .ground)
  | .escape =>
    if isExecuted code then (executed code, .escape)
    else if 0x20 ≤ code && code ≤ 0x2F then ([], .escapeIntermediate)
    else if code == 0x50 then ([], .dcsEntry)
    else if code == 0x5B then ([], .csiEntry)
    else if code == 0x5D then ([], .oscString)
    else if code == 0x58 || code == 0x5E || code == 0x5F then ([], .stringIgnore)
    else if 0x30 ≤ code && code ≤ 0x7E then ([], .ground)
    else ([], anywhere state code)
  | .escapeIntermediate =>
    if isExecuted code then (executed code, state)
    else if 0x20 ≤ code && code ≤ 0x2F then ([], state)
    else if 0x30 ≤ code && code ≤ 0x7E then ([], .ground)
    else ([], anywhere state code)
  | .csiEntry =>
    if isExecuted code then (executed code, state)
    else if 0x20 ≤ code && code ≤ 0x2F then ([], .csiIntermediate)
    else if 0x30 ≤ code && code ≤ 0x3F then ([], .csiParam)
    else if 0x40 ≤ code && code ≤ 0x7E then ([], .ground)
    else ([], anywhere state code)
  | .csiParam =>
    if isExecuted code then (executed code, state)
    else if 0x30 ≤ code && code ≤ 0x3B then ([], state)
    else if 0x3C ≤ code && code ≤ 0x3F then ([], .csiIgnore)
    else if 0x20 ≤ code && code ≤ 0x2F then ([], .csiIntermediate)
    else if 0x40 ≤ code && code ≤ 0x7E then ([], .ground)
    else ([], anywhere state code)
  | .csiIntermediate =>
    if isExecuted code then (executed code, state)
    else if 0x20 ≤ code && code ≤ 0x2F then ([], state)
    else if 0x30 ≤ code && code ≤ 0x3F then ([], .csiIgnore)
    else if 0x40 ≤ code && code ≤ 0x7E then ([], .ground)
    else ([], anywhere state code)
  | .csiIgnore =>
    if isExecuted code then (executed code, state)
    else if 0x20 ≤ code && code ≤ 0x3F then ([], state)
    else if 0x40 ≤ code && code ≤ 0x7E then ([], .ground)
    else ([], anywhere state code)
  | .dcsEntry =>
    if isExecuted code then ([], state)
    else if 0x20 ≤ code && code ≤ 0x2F then ([], .dcsIntermediate)
    else if 0x30 ≤ code && code ≤ 0x3F then ([], .dcsParam)
    else if 0x40 ≤ code && code ≤ 0x7E then ([], .dcsPassthrough)
    else ([], anywhere state code)
  | .dcsParam =>
    if isExecuted code then ([], state)
    else if 0x30 ≤ code && code ≤ 0x3B then ([], state)
    else if 0x3C ≤ code && code ≤ 0x3F then ([], .dcsIgnore)
    else if 0x20 ≤ code && code ≤ 0x2F then ([], .dcsIntermediate)
    else if 0x40 ≤ code && code ≤ 0x7E then ([], .dcsPassthrough)
    else ([], anywhere state code)
  | .dcsIntermediate =>
    if isExecuted code then ([], state)
    else if 0x20 ≤ code && code ≤ 0x2F then ([], state)
    else if 0x30 ≤ code && code ≤ 0x3F then ([], .dcsIgnore)
    else if 0x40 ≤ code && code ≤ 0x7E then ([], .dcsPassthrough)
    else ([], anywhere state code)
  | .oscString =>
    if code == 0x07 then ([], .ground) else ([], anywhere state code)
  | .dcsPassthrough =>
    match (continuationBytes code).dropWhile (· != 0x9C) with
    | _ :: after => (strayBytes after, .ground)
    | [] => ([], anywhere state code)
  | .dcsIgnore | .stringIgnore => ([], anywhere state code)

/-- What a terminal prints of a text read from a state. -/
def printedFrom : ReadState → List Char → List Char
  | _, [] => []
  | state, c :: rest =>
    let (written, next) := readStep state c
    written ++ printedFrom next rest

/-- A text without its escape sequences and control characters, line feeds kept. -/
def stripEscapes (text : String) : String := String.ofList (printedFrom .ground text.toList)

example : stripEscapes "\tx\x1b[1my \x07z" = "xy z" := by decide +kernel
example : stripEscapes "a\x1b]0;title\x07b\n" = "ab\n" := by decide +kernel
example : stripEscapes "\x1bPq\u011cz" = "z" := by decide +kernel
example : stripEscapes "\x1bPq\u2730z" = "\uFFFDz" := by decide +kernel
example : Style.blue.paint "a\x1b[0mb" = "\x1b[34ma\x1b[0m\x1b[34mb\x1b[0m" := by decide +kernel

end ScriptLowering.Text
