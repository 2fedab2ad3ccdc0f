-- `csv.writer` and `csv.reader` of the standard library, for the quoting that is
-- their default: a field is quoted where it must be, and a quote in it is doubled.
-- Whatever text the fields hold, the reader gives back what the writer was given.
import Mathlib.Data.List.Basic

namespace csv

abbrev Text := List Char

/-- The delimiter and the quote are apart from each other and from line breaks. -/
structure Dialect where
  delimiter : Char
  quotechar : Char
  apart : delimiter ≠ quotechar
  delimiter_inline : delimiter ≠ '\r' ∧ delimiter ≠ '\n'
  quotechar_inline : quotechar ≠ '\r' ∧ quotechar ≠ '\n'

def breaks (c : Char) : Bool := decide (c = '\r') || decide (c = '\n')

section

variable (d : Dialect)

/-! ## The writer -/

/-- A character for which a field is quoted. -/
def Dialect.special (c : Char) : Bool :=
  decide (c = d.delimiter) || decide (c = d.quotechar) || breaks c

def doubled (field : Text) : Text :=
  field.flatMap fun c => if c = d.quotechar then [c, c] else [c]

def quoted (field : Text) : Text := d.quotechar :: (doubled d field ++ [d.quotechar])

def write_field (field : Text) : Text := if field.any d.special then quoted d field else field

/-- `join_append`, field by field. -/
def join (fields : List Text) : Text := [d.delimiter].intercalate (fields.map (write_field d))

/-- `writerow`. A record that would be an empty line though it has a field gets quotes. -/
def write_row (fields : List Text) : Text :=
  (if fields ≠ [] ∧ join d fields = [] then quoted d [] else join d fields) ++ ['\r', '\n']

def write (records : List (List Text)) : Text := records.flatMap (write_row d)

/-! ## The reader -/

inductive Place where
  | start_record
  | start_field
  | in_field
  | in_quoted_field
  | quote_in_quoted_field
  | eat_crnl
deriving DecidableEq, Repr

structure Reader where
  place : Place := .start_record
  field : Text := []
  fields : List Text := []
  records : List (List Text) := []
deriving DecidableEq, Repr

namespace Reader

def add (r : Reader) (c : Char) (place : Place) : Reader :=
  { r with place := place, field := r.field ++ [c] }

/-- The field is complete. -/
def save (r : Reader) (place : Place) : Reader :=
  { r with place := place, field := [], fields := r.fields ++ [r.field] }

def start_field (r : Reader) (c : Char) : Reader :=
  if breaks c then r.save .eat_crnl
  else if c = d.quotechar then { r with place := .in_quoted_field }
  else if c = d.delimiter then r.save .start_field
  else r.add c .in_field

/-- `parse_process_char`. After a line break that ends a record only the rest of the
line break can come. -/
def step (r : Reader) (c : Char) : Option Reader :=
  match r.place with
  | .start_record => some (if breaks c then { r with place := .eat_crnl } else r.start_field d c)
  | .start_field => some (r.start_field d c)
  | .in_field => some (if breaks c then r.save .eat_crnl
      else if c = d.delimiter then r.save .start_field else r.add c .in_field)
  | .in_quoted_field => some (if c = d.quotechar then { r with place := .quote_in_quoted_field }
      else r.add c .in_quoted_field)
  | .quote_in_quoted_field => some (if c = d.quotechar then r.add c .in_quoted_field
      else if c = d.delimiter then r.save .start_field
      else if breaks c then r.save .eat_crnl else r.add c .in_field)
  | .eat_crnl => if breaks c then some r else none

/-- A record has ended. -/
def yield (r : Reader) : Reader :=
  { r with place := .start_record, fields := [], records := r.records ++ [r.fields] }

/-- The end of a line: a quoted field goes on in the next one. -/
def eol (r : Reader) : Reader :=
  match r.place with
  | .start_record | .eat_crnl => r.yield
  | .start_field | .in_field | .quote_in_quoted_field => (r.save .start_record).yield
  | .in_quoted_field => r

/-- The text, line by line; a line ends with `\r\n`, with `\r` or with `\n`. -/
def feed : Reader → Text → Option Reader
  | r, [] => some r
  | r, '\r' :: '\n' :: cs => do
    let r ← r.step d '\r'
    let r ← r.step d '\n'
    feed r.eol cs
  | r, c :: cs => do
    let r ← r.step d c
    feed (if breaks c || cs.isEmpty then r.eol else r) cs

/-- A quoted field that the text does not close is kept. -/
def finish (r : Reader) : List (List Text) :=
  if r.field ≠ [] ∨ r.place = .in_quoted_field then r.records ++ [r.fields ++ [r.field]]
  else r.records

end Reader

/-- The records of a text, or an error. Fields of any length are read: the limit that
`csv.field_size_limit` puts on them (131072 characters) is left out. -/
def read (text : Text) : Option (List (List Text)) := (Reader.feed d {} text).map Reader.finish

/-! ## One character at a time -/

variable {d} {r : Reader} {c : Char} {cs : Text}

theorem not_special (h : d.special c = false) :
    c ≠ d.delimiter ∧ c ≠ d.quotechar ∧ breaks c = false := by
  simpa [Dialect.special, and_assoc] using h

theorem breaks_quotechar : breaks d.quotechar = false := by
  simp [breaks, d.quotechar_inline]

theorem breaks_delimiter : breaks d.delimiter = false := by
  simp [breaks, d.delimiter_inline]

/-- A character that ends no line, with more text behind it. -/
theorem feed_inline (hc : breaks c = false) (hcs : cs ≠ []) :
    r.feed d (c :: cs) = (r.step d c).bind fun r => r.feed d cs := by
  have hemp : cs.isEmpty = false := by simpa using hcs
  have hne : ∀ cs', c :: cs ≠ '\r' :: '\n' :: cs' := by
    rintro cs' ⟨⟩
    simp [breaks] at hc
  rw [Reader.feed]
  · simp [hc, hemp]
  · rintro cs' rfl rfl
    exact hne _ rfl

/-- In a quoted field only a quote is special. -/
theorem feed_in_quotes (hp : r.place = .in_quoted_field) (hc : c ≠ d.quotechar) :
    r.feed d (c :: cs) = (r.add c .in_quoted_field).feed d cs := by
  have hstep : ∀ (r : Reader) c, r.place = .in_quoted_field → c ≠ d.quotechar →
      r.step d c = some (r.add c .in_quoted_field) := by
    intro r c hp hc
    simp [Reader.step, hp, hc]
  have heol : ∀ (r : Reader) c, (r.add c .in_quoted_field).eol = r.add c .in_quoted_field :=
    fun _ _ => rfl
  have hone : ∀ (r : Reader) c cs, r.place = .in_quoted_field → c ≠ d.quotechar →
      (∀ cs', c :: cs ≠ '\r' :: '\n' :: cs') →
        r.feed d (c :: cs) = (r.add c .in_quoted_field).feed d cs := by
    intro r c cs hp hc hne
    rw [Reader.feed]
    · simp [hstep r c hp hc, heol]
    · rintro cs' rfl rfl
      exact hne _ rfl
  by_cases hpair : ∃ cs', c :: cs = '\r' :: '\n' :: cs'
  · obtain ⟨cs', hcs⟩ := hpair
    cases hcs
    have hlf : ∀ cs'', '\n' :: cs' ≠ '\r' :: '\n' :: cs'' := by
      rintro cs'' ⟨⟩
    rw [Reader.feed, hstep r _ hp hc, hone (r.add '\r' .in_quoted_field) '\n' cs' rfl
      d.quotechar_inline.2.symm hlf]
    simp [hstep (r.add '\r' .in_quoted_field) '\n' rfl d.quotechar_inline.2.symm, heol]
  · exact hone r c cs hp hc fun cs' hcs => hpair ⟨cs', hcs⟩

/-! ## One field at a time -/

variable {rest field : Text} {fields : List Text}

theorem feed_doubled (hp : r.place = .in_quoted_field) (hrest : rest ≠ []) :
    r.feed d (doubled d field ++ rest) = { r with field := r.field ++ field }.feed d rest := by
  induction field generalizing r with
  | nil => simp [doubled]
  | cons c cs ih =>
    have htail : doubled d cs ++ rest ≠ [] := by simp [hrest]
    have hadd : { r.add c .in_quoted_field with field := (r.add c .in_quoted_field).field ++ cs } =
        { r with field := r.field ++ c :: cs } := by
      simp [Reader.add, hp]
    by_cases hc : c = d.quotechar
    · -- the first quote of the two does not close the field
      have htwo : doubled d (c :: cs) ++ rest = c :: c :: (doubled d cs ++ rest) := by
        simp [doubled, hc]
      have hopen : r.step d c = some { r with place := .quote_in_quoted_field } := by
        simp [Reader.step, hp, hc]
      have hback : { r with place := .quote_in_quoted_field }.step d c =
          some (r.add c .in_quoted_field) := by
        simp [Reader.step, hc, Reader.add]
      have hb : breaks c = false := by rw [hc]; exact breaks_quotechar
      rw [htwo, feed_inline hb (by simp), hopen, Option.bind_some, feed_inline hb htail, hback,
        Option.bind_some, ih rfl, hadd]
    · have hone : doubled d (c :: cs) ++ rest = c :: (doubled d cs ++ rest) := by
        simp [doubled, hc]
      rw [hone, feed_in_quotes hp hc, ih rfl, hadd]

theorem feed_plain (hp : r.place = .in_field) (hf : field.any d.special = false)
    (hrest : rest ≠ []) :
    r.feed d (field ++ rest) = { r with field := r.field ++ field }.feed d rest := by
  induction field generalizing r with
  | nil => simp
  | cons c cs ih =>
    simp only [List.any_cons, Bool.or_eq_false_iff] at hf
    obtain ⟨hd, _, hb⟩ := not_special hf.1
    have hstep : r.step d c = some (r.add c .in_field) := by
      simp [Reader.step, hp, hb, hd]
    rw [List.cons_append, feed_inline hb (by simp [hrest]), hstep, Option.bind_some, ih rfl hf.2]
    simp [Reader.add, hp]

/-- Where a field is, once it is read: in its text, behind its closing quote, or at
the start where it is empty. -/
def Read (start : Place) (field : Text) (place : Place) : Prop :=
  place = .in_field ∨ place = .quote_in_quoted_field ∨ place = start ∧ field = []

theorem feed_quoted (hp : r.place = .start_record ∨ r.place = .start_field) (hf : r.field = [])
    (hrest : rest ≠ []) : r.feed d (quoted d field ++ rest) =
      { r with place := .quote_in_quoted_field, field := field }.feed d rest := by
  have hopen : r.step d d.quotechar = some { r with place := .in_quoted_field } := by
    rcases hp with hp | hp <;> simp [Reader.step, hp, Reader.start_field, breaks_quotechar]
  have hclose : { r with place := .in_quoted_field, field := field }.step d d.quotechar =
      some { r with place := .quote_in_quoted_field, field := field } := by
    simp [Reader.step]
  have happ : quoted d field ++ rest =
      d.quotechar :: (doubled d field ++ d.quotechar :: rest) := by
    simp [quoted]
  rw [happ, feed_inline breaks_quotechar (by simp), hopen, Option.bind_some,
    feed_doubled rfl (by simp), hf, List.nil_append, feed_inline breaks_quotechar hrest, hclose,
    Option.bind_some]

theorem feed_field (hp : r.place = .start_record ∨ r.place = .start_field) (hf : r.field = [])
    (hrest : rest ≠ []) : ∃ place, Read r.place field place ∧
      r.feed d (write_field d field ++ rest) =
        { r with place := place, field := field }.feed d rest := by
  unfold write_field
  split
  · exact ⟨.quote_in_quoted_field, Or.inr (Or.inl rfl), feed_quoted hp hf hrest⟩
  · rename_i hany
    simp only [Bool.not_eq_true] at hany
    cases field with
    | nil =>
      refine ⟨r.place, Or.inr (Or.inr ⟨rfl, rfl⟩), ?_⟩
      have hsame : { r with place := r.place, field := [] } = r := by rw [← hf]
      rw [hsame, List.nil_append]
    | cons c cs =>
      refine ⟨.in_field, Or.inl rfl, ?_⟩
      simp only [List.any_cons, Bool.or_eq_false_iff] at hany
      obtain ⟨hd, hq, hb⟩ := not_special hany.1
      have hstep : r.step d c = some (r.add c .in_field) := by
        rcases hp with hp | hp <;> simp [Reader.step, hp, hb, hd, hq, Reader.start_field]
      rw [List.cons_append, feed_inline hb (by simp [hrest]), hstep, Option.bind_some,
        feed_plain rfl hany.2 hrest]
      simp [Reader.add, hf]

/-! ## One record at a time -/

/-- A field that is not the last one of its record. -/
theorem feed_then_delimiter (hp : r.place = .start_record ∨ r.place = .start_field)
    (hf : r.field = []) (hrest : rest ≠ []) :
    r.feed d (write_field d field ++ d.delimiter :: rest) =
      { r with place := .start_field, field := [], fields := r.fields ++ [field] }.feed d rest := by
  obtain ⟨place, hread, hfeed⟩ : ∃ place, Read r.place field place ∧
      r.feed d (write_field d field ++ d.delimiter :: rest) =
        { r with place := place, field := field }.feed d (d.delimiter :: rest) :=
    feed_field hp hf (List.cons_ne_nil d.delimiter rest)
  have hstep : { r with place := place, field := field }.step d d.delimiter =
      some { r with place := .start_field, field := [], fields := r.fields ++ [field] } := by
    rcases hread with rfl | rfl | ⟨rfl, rfl⟩
    · simp [Reader.step, breaks_delimiter, Reader.save]
    · simp [Reader.step, d.apart, Reader.save]
    · rcases hp with hp | hp <;>
        simp [Reader.step, hp, Reader.start_field, breaks_delimiter, d.apart, Reader.save]
  rw [hfeed, feed_inline breaks_delimiter hrest, hstep, Option.bind_some]

theorem feed_break (r : Reader) (rest : Text) : r.feed d ('\r' :: '\n' :: rest) =
    (r.step d '\r').bind fun r => (r.step d '\n').bind fun r => r.eol.feed d rest := by
  rw [Reader.feed]
  rfl

/-- The last field of a record, if it is not a record by itself that is empty. -/
theorem feed_then_break (hp : r.place = .start_record ∨ r.place = .start_field)
    (hf : r.field = []) (hne : r.place = .start_field ∨ field ≠ []) :
    r.feed d (write_field d field ++ '\r' :: '\n' :: rest) =
      { r with
        place := .start_record, field := [], fields := [],
        records := r.records ++ [r.fields ++ [field]] }.feed d rest := by
  obtain ⟨place, hread, hfeed⟩ : ∃ place, Read r.place field place ∧
      r.feed d (write_field d field ++ '\r' :: '\n' :: rest) =
        { r with place := place, field := field }.feed d ('\r' :: '\n' :: rest) :=
    feed_field hp hf (List.cons_ne_nil '\r' ('\n' :: rest))
  rw [hfeed, feed_break]
  have hq : '\r' ≠ d.quotechar := d.quotechar_inline.1.symm
  have hd : '\r' ≠ d.delimiter := d.delimiter_inline.1.symm
  have hcr : breaks '\r' = true := rfl
  have hlf : breaks '\n' = true := rfl
  rcases hread with rfl | rfl | ⟨rfl, rfl⟩
  · simp [Reader.step, hcr, hlf, Reader.save, Reader.eol, Reader.yield]
  · simp [Reader.step, hq, hd, hcr, hlf, Reader.save, Reader.eol, Reader.yield]
  · have hstart : r.place = .start_field := hne.resolve_right fun h => h rfl
    simp [Reader.step, hstart, Reader.start_field, hcr, hlf, Reader.save, Reader.eol, Reader.yield]

theorem join_cons_cons (f g : Text) (fs : List Text) :
    join d (f :: g :: fs) = write_field d f ++ d.delimiter :: join d (g :: fs) := by
  simp [join, List.intercalate]

theorem join_single (f : Text) : join d [f] = write_field d f := by
  simp [join, List.intercalate]

theorem feed_join {f : Text} (hp : r.place = .start_record ∨ r.place = .start_field)
    (hf : r.field = []) (hne : r.place = .start_field ∨ f :: fields ≠ [[]]) :
    r.feed d (join d (f :: fields) ++ '\r' :: '\n' :: rest) =
      { r with
        place := .start_record, field := [], fields := [],
        records := r.records ++ [r.fields ++ f :: fields] }.feed d rest := by
  induction fields generalizing r f with
  | nil =>
    rw [join_single]
    exact feed_then_break hp hf (hne.imp_right fun h hf => h (by rw [hf]))
  | cons g gs ih =>
    rw [join_cons_cons, List.append_assoc, List.cons_append,
      feed_then_delimiter hp hf (by simp), ih (Or.inr rfl) rfl (Or.inl rfl)]
    simp

/-- Between two records. -/
def Reader.after (records : List (List Text)) : Reader := { records := records }

theorem feed_row (records : List (List Text)) (row : List Text) :
    (Reader.after records).feed d (write_row d row ++ rest) =
      (Reader.after (records ++ [row])).feed d rest := by
  unfold write_row
  cases row with
  | nil =>
    simp only [ne_eq, not_true, false_and, if_false, join, List.map_nil, List.intercalate,
      List.intersperse, List.flatten_nil, List.nil_append, List.cons_append]
    rw [feed_break]
    rfl
  | cons f fs =>
    split
    · -- one empty field, in quotes
      rename_i h
      have hfs : fs = [] := by
        cases fs with
        | nil => rfl
        | cons g gs => simp [join_cons_cons] at h
      subst hfs
      rw [join_single] at h
      have hf : f = [] := by
        have hw := h.2
        unfold write_field at hw
        split at hw
        · simp [quoted] at hw
        · exact hw
      subst hf
      rw [List.append_assoc, feed_quoted (Or.inl rfl) rfl (by simp)]
      change Reader.feed d _ ('\r' :: '\n' :: rest) = _
      rw [feed_break]
      have hq : '\r' ≠ d.quotechar := d.quotechar_inline.1.symm
      have hd : '\r' ≠ d.delimiter := d.delimiter_inline.1.symm
      simp [Reader.step, hq, hd, breaks, Reader.save, Reader.eol, Reader.yield, Reader.after]
    · rename_i h
      have hne : f :: fs ≠ [[]] := by
        intro heq
        cases heq
        exact h ⟨by simp, by simp [join_single, write_field]⟩
      rw [List.append_assoc]
      exact feed_join (Or.inl rfl) rfl (Or.inr hne)

/-! ## The round trip -/

/-- What was written is read back, whatever the fields hold: delimiters, quotes, line
breaks of every kind, or nothing. -/
theorem read_write (records : List (List Text)) : read d (write d records) = some records := by
  have hfeed : ∀ done : List (List Text), (Reader.after done).feed d (write d records) =
      some (Reader.after (done ++ records)) := by
    induction records with
    | nil => simp [write, Reader.feed]
    | cons row rows ih =>
      intro done
      have hcons : write d (row :: rows) = write_row d row ++ write d rows := rfl
      rw [hcons, feed_row, ih]
      simp
  have hall := hfeed []
  rw [List.nil_append] at hall
  unfold read
  rw [show ({} : Reader) = Reader.after [] from rfl, hall]
  simp [Reader.after, Reader.finish]

/-- Two tables with one text are one table. -/
theorem write_inj {records records' : List (List Text)} :
    write d records = write d records' ↔ records = records' := by
  refine ⟨fun h => ?_, fun h => by rw [h]⟩
  have hread := read_write (d := d) records
  rw [h, read_write, Option.some.injEq] at hread
  exact hread.symm

end

end csv
