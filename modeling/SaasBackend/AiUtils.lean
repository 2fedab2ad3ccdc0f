-- `admin/ai_utils.py`: what the text of a query goes through before it is
-- executed. Each regular expression is a scanner of the text, from left to right.
import SaasBackend.Models

namespace saas.AIUtils

/-! ## Characters and strings -/

def quote : Char := Char.ofNat 39

def newline : Char := Char.ofNat 10

/-- `str.lower()` of one character. Beyond ASCII there are two that become ASCII
letters; the others stay beyond ASCII, where nothing below looks. -/
def lower_char (c : Char) : List Char :=
  if c = Char.ofNat 0x212A then ['k']
  else if c = Char.ofNat 0x130 then ['i', Char.ofNat 0x307]
  else [c.toLower]

def lower (text : List Char) : List Char := text.flatMap lower_char

/-- `str.isspace()` of one character. -/
def isspace (c : Char) : Bool :=
  let n := c.toNat
  decide (9 ≤ n ∧ n ≤ 13) || decide (28 ≤ n ∧ n ≤ 32) || decide (0x2000 ≤ n ∧ n ≤ 0x200A) ||
    decide (n ∈ [0x85, 0xA0, 0x1680, 0x2028, 0x2029, 0x202F, 0x205F, 0x3000])

/-- `str.strip()`. -/
def strip (text : List Char) : List Char :=
  ((text.dropWhile isspace).reverse.dropWhile isspace).reverse

/-! ## Enum literals -/

/-- The values and names of `ENUM_CLASSES`. -/
def ENUM_CLASSES : List (List (String × String)) :=
  [[("active", "ACTIVE"), ("trialing", "TRIALING"), ("pending", "PENDING"),
      ("canceled", "CANCELED"), ("past_due", "PAST_DUE")],
    [("succeeded", "SUCCEEDED"), ("pending", "PENDING"), ("failed", "FAILED")],
    [("manual", "MANUAL"), ("stripe", "STRIPE"), ("paymob", "PAYMOB")],
    [("monthly", "MONTHLY"), ("yearly", "YEARLY")],
    [("google", "GOOGLE"), ("github", "GITHUB"), ("local", "LOCAL")]]

/-- `build_enum_map_from_python()`. -/
def ENUM_MAP : List (List Char × List Char) :=
  ENUM_CLASSES.flatten.map fun (value, name) => (lower value.toList, name.toList)

/-- `repl`, without the quotes. -/
def repl (val : List Char) : List Char := (ENUM_MAP.lookup (lower val)).getD val

/-- Outside of a literal, or after a quote and some characters that are no
quotes. Two quotes in a row are no literal: the second may begin one. -/
def scan_literals : Option (List Char) → List Char → List Char
  | none, [] => []
  | some val, [] => quote :: val
  | none, c :: text =>
    if c = quote then scan_literals (some []) text else c :: scan_literals none text
  | some val, c :: text =>
    if c ≠ quote then scan_literals (some (val ++ [c])) text
    else if val = [] then quote :: scan_literals (some []) text
    else quote :: repl val ++ quote :: scan_literals none text

def normalize_enum_literals (sql : List Char) : List Char := scan_literals none sql

/-! ## Comments -/

/-- A comment ends before the newline. -/
def drop_line_comments : Bool → List Char → List Char
  | _, [] => []
  | true, c :: text =>
    if c = newline then c :: drop_line_comments false text else drop_line_comments true text
  | false, '-' :: '-' :: text => drop_line_comments true text
  | false, c :: text => c :: drop_line_comments false text

/-- The end of a comment is somewhere in the text. -/
def closes : List Char → Bool
  | '*' :: '/' :: _ => true
  | _ :: text => closes text
  | [] => false

/-- Only a comment that is closed is dropped. -/
def drop_block_comments : Bool → List Char → List Char
  | true, '*' :: '/' :: text => drop_block_comments false text
  | true, _ :: text => drop_block_comments true text
  | false, '/' :: '*' :: text =>
    if closes text then drop_block_comments true text
    else '/' :: '*' :: drop_block_comments false text
  | false, c :: text => c :: drop_block_comments false text
  | _, [] => []

def normalize_sql (sql : List Char) : List Char :=
  strip (drop_block_comments false (drop_line_comments false sql))

/-! ## The read-only check -/

/-- In the order of the error message. -/
def BLOCKED_KEYWORDS : List String :=
  ["alter", "analyze", "call", "comment", "copy", "create", "delete", "do", "drop", "execute",
    "grant", "insert", "lock", "refresh", "reindex", "revoke", "truncate", "update", "vacuum"]

/-- `[a-zA-Z_]`. -/
def token_char (c : Char) : Bool := c.isAlpha || c = '_'

/-- The matches of `[a-zA-Z_]+`, after the characters `token` of one. -/
def tokens (token : List Char) : List Char → List (List Char)
  | [] => if token = [] then [] else [token]
  | c :: text =>
    if token_char c then tokens (token ++ [c]) text
    else if token = [] then tokens [] text
    else token :: tokens [] text

def blocked_keywords (lower : List Char) : List String :=
  BLOCKED_KEYWORDS.filter fun keyword => decide (keyword.toList ∈ tokens [] lower)

def ensure_readonly (sql : List Char) : Except Err (List Char) :=
  let lower := strip (lower sql)
  if sql = [] then .error (.unsafeSQL "Empty SQL")
  else if ¬ ("select".toList.isPrefixOf lower ∨ "with".toList.isPrefixOf lower) then
    .error (.unsafeSQL "Only SELECT queries are allowed")
  else if blocked_keywords lower ≠ [] then
    .error (.unsafeSQL
      ("Blocked keyword(s): ['" ++ "', '".intercalate (blocked_keywords lower) ++ "']"))
  else .ok sql

/-! ## The limit of a preview -/

section

variable (isalnum : Char → Bool)

/-- `\w`. Beyond ASCII `str.isalnum()` decides, and `isalnum` is it there. -/
def word_char (c : Char) : Bool :=
  c.isAlphanum || c = '_' || (decide (128 ≤ c.toNat) && isalnum c)

/-- `limit` without regard to case, where a dotted and a dotless i are the letter
as well, and what follows it. -/
def after_limit : List Char → Option (List Char)
  | l :: i :: m :: i' :: t :: text =>
    let letter_i := ['i', 'I', Char.ofNat 0x130, Char.ofNat 0x131]
    if l ∈ ['l', 'L'] ∧ i ∈ letter_i ∧ m ∈ ['m', 'M'] ∧ i' ∈ letter_i ∧ t ∈ ['t', 'T'] then
      some text
    else none
  | _ => none

/-- `\blimit\b` in the text, after a character that is part of a word or not. -/
def has_limit : Bool → List Char → Bool
  | _, [] => false
  | in_word, c :: text =>
    (!in_word && (after_limit (c :: text)).any fun rest => !rest.head?.any (word_char isalnum)) ||
      has_limit (word_char isalnum c) text

def apply_default_limit (sql : List Char) (default_limit : Nat) : List Char :=
  if has_limit isalnum false sql then sql
  else sql ++ newline :: "LIMIT ".toList ++ (toString default_limit).toList

end

end saas.AIUtils
