import NativeBridge.Options

/-!
# Options from TOML

Options are read from a flat TOML table. Every option is a boolean or an integer under a name of
its own, so the documents that can be accepted have one assignment on a line, between blank lines
and comments; all that TOML offers beyond that (tables, dotted keys, texts, dates, lists) is an
option of another type or an unknown one, and is refused as a document that is not TOML is.
-/

namespace NativeBridge

namespace Options

namespace Toml

/-- What an option is set to. -/
inductive Setting where
  | flag (b : Bool)
  | number (n : Int)
  deriving DecidableEq

/-! ### Characters -/

/-- Space and tab. -/
def isBlank (c : Char) : Bool := c = ' ' || c = '\t'

/-- Characters that a comment or a quoted key may hold: tab, visible ASCII and all beyond. -/
def isText (c : Char) : Bool := c = '\t' || (' ' ≤ c && c ≤ '~') || '\x80' ≤ c

/-- Characters of keys without quotes. -/
def isBare (c : Char) : Bool := c.isAlphanum || c = '_' || c = '-'

/-- The value of a digit in bases up to sixteen. -/
def digit? (c : Char) : Option Nat :=
  if '0' ≤ c && c ≤ '9' then some (c.toNat - '0'.toNat)
  else if 'a' ≤ c && c ≤ 'f' then some (c.toNat - 'a'.toNat + 10)
  else if 'A' ≤ c && c ≤ 'F' then some (c.toNat - 'A'.toNat + 10)
  else none

/-- The number that a nonempty row of digits writes in a base. -/
def digits? (base : Nat) : List Char → Option Nat
  | [] => none
  | cs => cs.foldlM (fun n c => (digit? c).bind fun d =>
      if d < base then some (n * base + d) else none) 0

/-- The character of a code point that is one. -/
def scalar? (n : Nat) : Option Char := if n.isValidChar then some (Char.ofNat n) else none

/-! ### Keys -/

/-- The text up to the closing double quote, escapes resolved, and what follows it. -/
def basicKey? : List Char → Option (List Char × List Char)
  | '"' :: rest => some ([], rest)
  | '\\' :: 'U' :: a :: b :: c :: d :: e :: f :: g :: h :: rest => do
    let x ← (digits? 16 [a, b, c, d, e, f, g, h]).bind scalar?
    let (key, rest) ← basicKey? rest
    return (x :: key, rest)
  | '\\' :: 'u' :: a :: b :: c :: d :: rest => do
    let x ← (digits? 16 [a, b, c, d]).bind scalar?
    let (key, rest) ← basicKey? rest
    return (x :: key, rest)
  | '\\' :: c :: rest => do
    let x ← [('b', '\x08'), ('t', '\t'), ('n', '\n'), ('f', '\x0c'), ('r', '\r'), ('"', '"'),
      ('\\', '\\')].lookup c
    let (key, rest) ← basicKey? rest
    return (x :: key, rest)
  | c :: rest => do
    guard (isText c && c ≠ '\\')
    let (key, rest) ← basicKey? rest
    return (c :: key, rest)
  | [] => none

/-- A key, and what follows it. -/
def key? : List Char → Option (List Char × List Char)
  | '"' :: rest => basicKey? rest
  | '\'' :: rest =>
    match rest.span fun c => isText c && c ≠ '\'' with
    | (key, '\'' :: rest) => some (key, rest)
    | _ => none
  | cs =>
    match cs.span isBare with
    | ([], _) => none
    | (key, rest) => some (key, rest)

/-! ### Settings -/

/-- A row of digits in which single underscores may stand between digits. -/
def grouped? (base : Nat) (cs : List Char) : Option Nat :=
  if (cs.splitOn '_').any List.isEmpty then none else digits? base (cs.filter (· ≠ '_'))

/-- A decimal number without a sign; only zero starts with the digit zero. -/
def decimal? (cs : List Char) : Option Nat :=
  if cs.head? = some '0' && cs.length ≠ 1 then none else grouped? 10 cs

/-- An integer: decimal with or without a sign, or hexadecimal, octal or binary without one. -/
def integer? : List Char → Option Int
  | '0' :: 'x' :: cs => (grouped? 16 cs).map Int.ofNat
  | '0' :: 'o' :: cs => (grouped? 8 cs).map Int.ofNat
  | '0' :: 'b' :: cs => (grouped? 2 cs).map Int.ofNat
  | '+' :: cs => (decimal? cs).map Int.ofNat
  | '-' :: cs => (decimal? cs).map fun n => -Int.ofNat n
  | cs => (decimal? cs).map Int.ofNat

/-- What a word sets an option to. Integers have 64 bits. -/
def setting? (word : List Char) : Option Setting :=
  if word = "true".toList then some (.flag true)
  else if word = "false".toList then some (.flag false)
  else do
    let n ← integer? word
    guard (-9223372036854775808 ≤ n && n ≤ 9223372036854775807)
    return .number n

/-! ### Documents -/

/-- Whether nothing but blanks and a comment stands here. -/
def isTrailer (cs : List Char) : Bool :=
  match cs.dropWhile isBlank with
  | [] => true
  | '#' :: comment => comment.all isText
  | _ => false

/-- The assignment of a line, if it has one. A line that is no line of an accepted document is
an error. -/
def line? (cs : List Char) : Option (Option (String × Setting)) := do
  if isTrailer cs then return none
  let (key, rest) ← key? (cs.dropWhile isBlank)
  match rest.dropWhile isBlank with
  | '=' :: rest =>
    let (word, rest) := (rest.dropWhile isBlank).span fun c => !isBlank c && c ≠ '#'
    let setting ← setting? word
    guard (isTrailer rest)
    return some (String.ofList key, setting)
  | _ => none

/-- The lines of a document. A line ends in a line feed, which a carriage return may precede. -/
def lines (source : String) : List (List Char) :=
  let cs := source.toList
  let cs := if cs.head? = some '\uFEFF' then cs.tail else cs
  let parts := cs.splitOn '\n'
  (parts.dropLast.map fun part =>
    if part.getLast? = some '\r' then part.dropLast else part) ++ parts.getLast?.toList

/-- The assignments of a document, in order. No option is assigned twice. -/
def assignments? (source : String) : Option (List (String × Setting)) := do
  let found ← (lines source).mapM line?
  let assignments := found.filterMap id
  guard (decide (assignments.map Prod.fst).Nodup)
  return assignments

/-- An option set to a value in its range. -/
def assign? (o : Options) : String × Setting → Option Options
  | ("max_heap_slots", .number n) =>
    if 0 ≤ n then some { o with maxHeapSlots := UInt64.ofNat n.toNat } else none
  | ("max_diagnostics", .number n) =>
    if 0 ≤ n then some { o with maxDiagnostics := UInt64.ofNat n.toNat } else none
  | ("log_diagnostics", .flag b) => some { o with logDiagnostics := b }
  | ("default_severity", .number n) =>
    if 0 ≤ n && n < 4294967296 then some { o with defaultSeverity := UInt32.ofNat n.toNat }
    else none
  | _ => none

end Toml

/-- Reads options from a flat TOML table; what the table leaves out keeps its default. -/
def ofToml (source : String) : Except OptionsError Options :=
  match (Toml.assignments? source).bind fun assignments =>
      assignments.foldlM Toml.assign? default with
  | some o => o.validate
  | none => .error .malformed

end Options

end NativeBridge
