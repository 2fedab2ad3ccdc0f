-- The lexical rules of PostgreSQL (16, standard-conforming strings): comments,
-- literals and their continuation over lines, dollar quotes, quoted identifiers,
-- words, numbers, parameters and operators. Contents are as they are written.
import Mathlib.Data.List.Basic

namespace pg

/-! ## Characters -/

def quote : Char := Char.ofNat 39

def dquote : Char := Char.ofNat 34

def backslash : Char := Char.ofNat 92

def space (c : Char) : Bool := c = ' ' || decide (9 ≤ c.toNat ∧ c.toNat ≤ 13)

def newline (c : Char) : Bool := decide (c.toNat = 10 ∨ c.toNat = 13)

/-- The start of a word: a letter, an underscore, or a character beyond ASCII. -/
def ident_start (c : Char) : Bool := c.isAlpha || c = '_' || decide (128 ≤ c.toNat)

/-- What the tag of a dollar quote goes on with. -/
def tag_cont (c : Char) : Bool := ident_start c || c.isDigit

def ident_cont (c : Char) : Bool := tag_cont c || c = '$'

/-- The characters of operators that SQL has no operators with. -/
def extra_op_chars : List Char := ['~', '!', '@', '#', '^', '&', '|', Char.ofNat 96, '?', '%']

def op_char (c : Char) : Bool := c ∈ extra_op_chars ++ ['+', '-', '*', '/', '<', '>', '=']

def hexdigit (c : Char) : Bool := c.isDigit || c ∈ "abcdefABCDEF".toList

def octdigit (c : Char) : Bool := c ∈ "01234567".toList

def bindigit (c : Char) : Bool := c ∈ ['0', '1']

/-! ## Tokens -/

inductive Token where
  /-- An identifier without quotes, or a keyword. -/
  | word (text : List Char)
  /-- An identifier in double quotes. -/
  | quoted (opening content : List Char)
  | literal (opening content : List Char)
  | number (text : List Char)
  | param (digits : List Char)
  /-- An operator or another character. -/
  | symbol (text : List Char)
  /-- Text that cannot be read. Nothing is read after it. -/
  | error
deriving DecidableEq, Repr

/-- What stands at the start of a text, and the text after it. -/
inductive Scan where
  | skip (rest : List Char)
  | token (token : Token) (rest : List Char)
  | error
deriving DecidableEq, Repr

/-! ## Comments and quotes -/

/-- The text after a block comment, `depth` comments inside of it. -/
def comment_end : Nat → List Char → Option (List Char)
  | 0, '*' :: '/' :: text => some text
  | depth + 1, '*' :: '/' :: text => comment_end depth text
  | depth, '/' :: '*' :: text => comment_end (depth + 1) text
  | depth, _ :: text => comment_end depth text
  | _, [] => none

/-- Where the scan of a string is: inside, after a backslash, after a quote that
may close it, or farther behind that quote, at spaces, a dash or a comment; `rest`
is the text after the quote, and `line` says that a new line has come since. -/
inductive At where
  | inside
  | escaped
  | closed
  | gap (rest : List Char) (line : Bool)
  | dash (rest : List Char) (line : Bool)
  | comment (rest : List Char) (line : Bool)

/-- One more character behind the string, unless the string cannot go on after it. -/
def behind (rest : List Char) (line : Bool) (c : Char) : Option At :=
  if newline c then some (.gap rest true)
  else if space c then some (.gap rest line)
  else if c = '-' then some (.dash rest line)
  else none

/-- The content of a string, and the text after it. A string goes on with a second
one that starts on another line. -/
def string_end (escapes : Bool) : At → List Char → List Char → Option (List Char × List Char)
  | .inside, _, [] => none
  | .escaped, _, [] => none
  | .closed, content, [] => some (content, [])
  | .gap rest _, content, [] => some (content, rest)
  | .dash rest _, content, [] => some (content, rest)
  | .comment rest _, content, [] => some (content, rest)
  | .inside, content, c :: text =>
    if c = quote then string_end escapes .closed content text
    else if escapes && c = backslash then string_end escapes .escaped (content ++ [c]) text
    else string_end escapes .inside (content ++ [c]) text
  | .escaped, content, c :: text => string_end escapes .inside (content ++ [c]) text
  | .closed, content, c :: text =>
    if c = quote then string_end escapes .inside (content ++ [c]) text
    else match behind (c :: text) false c with
      | some m => string_end escapes m content text
      | none => some (content, c :: text)
  | .gap rest line, content, c :: text =>
    if c = quote then
      if line then string_end escapes .inside content text else some (content, rest)
    else match behind rest line c with
      | some m => string_end escapes m content text
      | none => some (content, rest)
  | .dash rest line, content, c :: text =>
    if c = '-' then string_end escapes (.comment rest line) content text else some (content, rest)
  | .comment rest line, content, c :: text =>
    if newline c then string_end escapes (.gap rest true) content text
    else string_end escapes (.comment rest line) content text

/-- The content of an identifier in double quotes, and the text after it. -/
def quoted_end : List Char → List Char → Option (List Char × List Char)
  | _, [] => none
  | content, [c] => if c = dquote then some (content, []) else none
  | content, c :: d :: text =>
    if c ≠ dquote then quoted_end (content ++ [c]) (d :: text)
    else if d = dquote then quoted_end (content ++ [c]) text
    else some (content, d :: text)

/-- The tag of a dollar quote after its first dollar, and the text after the second. -/
def tag (text : List Char) : Option (List Char × List Char) :=
  match text.dropWhile tag_cont with
  | '$' :: rest =>
    let name := text.takeWhile tag_cont
    if name.head?.all ident_start then some (name, rest) else none
  | _ => none

/-- What stands before the first `mark`, and what after it. -/
def find_mark (mark : List Char) : List Char → List Char → Option (List Char × List Char)
  | _, [] => none
  | content, c :: text =>
    if mark.isPrefixOf (c :: text) then some (content, (c :: text).drop mark.length)
    else find_mark mark (content ++ [c]) text

/-! ## Numbers -/

/-- What follows digits, each with an underscore before it or not. -/
def digits (digit : Char → Bool) : List Char → List Char
  | '_' :: d :: text => if digit d then digits digit text else '_' :: d :: text
  | d :: text => if digit d then digits digit text else d :: text
  | [] => []

/-- Two dots are not part of a number. -/
def fraction : List Char → List Char
  | '.' :: d :: text =>
    if d = '.' then '.' :: d :: text
    else if d.isDigit then digits Char.isDigit text
    else d :: text
  | ['.'] => []
  | text => text

def exponent : List Char → List Char
  | e :: c :: d :: text =>
    if e ∉ ['e', 'E'] then e :: c :: d :: text
    else if c.isDigit then digits Char.isDigit (d :: text)
    else if c ∈ ['+', '-'] ∧ d.isDigit then digits Char.isDigit text
    else e :: c :: d :: text
  | [e, c] => if e ∈ ['e', 'E'] ∧ c.isDigit then [] else [e, c]
  | text => text

/-- The digits after `0x`, `0o` and `0b`. -/
def radix_digit (x : Char) : Option (Char → Bool) :=
  if x ∈ ['x', 'X'] then some hexdigit
  else if x ∈ ['o', 'O'] then some octdigit
  else if x ∈ ['b', 'B'] then some bindigit
  else none

/-- What follows an integer with a radix, if there is one. -/
def radix : List Char → Option (List Char)
  | '0' :: x :: text => match radix_digit x with
    | some digit => if digits digit text = text then none else some (digits digit text)
    | none => none
  | _ => none

/-- What follows the number at the start of the text. -/
def number_end (text : List Char) : List Char :=
  (radix text).getD (exponent (fraction (digits Char.isDigit text)))

/-- The part of the text before `rest`. -/
def used (text rest : List Char) : List Char := text.take (text.length - rest.length)

/-- A number or a parameter, which no word may follow directly. -/
def apart (token : Token) (rest : List Char) : Scan :=
  if rest.head?.any ident_start then .error else .token token rest

/-! ## Operators -/

/-- A comment may start inside of a run of operator characters. -/
def before_comment : List Char → List Char
  | '-' :: '-' :: _ => []
  | '/' :: '*' :: _ => []
  | c :: text => c :: before_comment text
  | [] => []

/-- An operator with SQL's own characters only does not end with a sign, unless it
is one. -/
def without_signs (op : List Char) : List Char :=
  if op.any (· ∈ extra_op_chars) then op
  else match op.reverse.dropWhile (· ∈ ['+', '-']) with
    | [] => op.take 1
    | kept => kept.reverse

def operator (text : List Char) : List Char :=
  without_signs (before_comment (text.takeWhile op_char))

/-- The special characters that two characters make. -/
def pairs : List (List Char) := [[':', ':'], [':', '='], ['.', '.']]

def special (c : Char) (text : List Char) : List Char :=
  if pairs.any (· = c :: text.take 1) then c :: text.take 1 else [c]

/-! ## The text -/

def string (escapes : Bool) (opening text : List Char) : Scan :=
  match string_end escapes .inside [] text with
  | some (content, rest) => .token (.literal opening content) rest
  | none => .error

/-- No identifier is empty. -/
def quoted_ident (opening text : List Char) : Scan :=
  match quoted_end [] text with
  | some (c :: content, rest) => .token (.quoted opening (c :: content)) rest
  | _ => .error

/-- After a dollar: a dollar quote, a parameter, or the dollar alone. -/
def dollar (text : List Char) : Scan :=
  match tag text with
  | some (name, rest) =>
    let mark := '$' :: name ++ ['$']
    match find_mark mark [] rest with
    | some (content, rest) => .token (.literal mark content) rest
    | none => .error
  | none =>
    if text.head?.any Char.isDigit then
      apart (.param (text.takeWhile Char.isDigit)) (text.dropWhile Char.isDigit)
    else .token (.symbol ['$']) text

/-- At a letter: a literal with a prefix, an identifier with one, or a word. -/
def word (c : Char) (text : List Char) : Scan :=
  let plain := Scan.token (.word (c :: text.takeWhile ident_cont)) (text.dropWhile ident_cont)
  match text with
  | d :: e :: rest =>
    if c ∈ "bBxXnN".toList ∧ d = quote then string false [c, d] (e :: rest)
    else if c ∈ ['e', 'E'] ∧ d = quote then string true [c, d] (e :: rest)
    else if c ∈ ['u', 'U'] ∧ d = '&' ∧ e = quote then string false [c, d, e] rest
    else if c ∈ ['u', 'U'] ∧ d = '&' ∧ e = dquote then quoted_ident [c, d, e] rest
    else plain
  | [d] => if c ∈ "bBxXnNeE".toList ∧ d = quote then .error else plain
  | [] => plain

/-- The first token of a text, or what stands before it. -/
def scan (c : Char) (text : List Char) : Scan :=
  if space c then .skip text
  else if c = '-' ∧ text.head? = some '-' then .skip (text.dropWhile fun c => !newline c)
  else if c = '/' ∧ text.head? = some '*' then
    match comment_end 0 text.tail with
    | some rest => .skip rest
    | none => .error
  else if c = quote then string false [c] text
  else if c = dquote then quoted_ident [c] text
  else if c = '$' then dollar text
  else if ident_start c then word c text
  else if c.isDigit ∨ (c = '.' ∧ text.head?.any Char.isDigit) then
    let rest := number_end (c :: text)
    apart (.number (used (c :: text) rest)) rest
  else if op_char c then
    let op := operator (c :: text)
    .token (.symbol op) ((c :: text).drop op.length)
  else .token (.symbol (special c text)) ((c :: text).drop (special c text).length)

/-- At most so many tokens and gaps. -/
def lex_steps : Nat → List Char → List Token
  | n + 1, c :: text => match scan c text with
    | .skip rest => lex_steps n rest
    | .token token rest => token :: lex_steps n rest
    | .error => [.error]
  | _, _ => []

/-- The tokens of a text, up to the first error. -/
def lex (text : List Char) : List Token := lex_steps text.length text

end pg
