-- Text that is added to another on a line of its own: a text that can be read is
-- read as before, and the added text by itself; in a text that cannot be read,
-- it stays unread.
import SaasBackend.PgTokens

namespace pg

/-- A new line that closes nothing that is open before it. -/
structure Inert (added : List Char) : Prop where
  head : added.head? = some (Char.ofNat 10)
  chars : ∀ c ∈ added, c ≠ quote ∧ c ≠ dquote ∧ c ≠ '$' ∧ c ≠ '*'

/-- The scan of a text with more text behind it. -/
def Scan.append (added : List Char) : Scan → Scan
  | skip rest => skip (rest ++ added)
  | .token found rest => token found (rest ++ added)
  | error => error

section

variable {added text content mark : List Char}

theorem Inert.cons (h : Inert added) : ∃ rest, added = Char.ofNat 10 :: rest := by
  have hhead := h.head
  cases added with
  | nil => cases hhead
  | cons c rest =>
    cases hhead
    exact ⟨rest, rfl⟩

/-- What starts with another character starts in the text. -/
theorem Inert.starts (h : Inert added) {d : Char} {rest : List Char} (hd : d ≠ Char.ofNat 10)
    (heq : text ++ added = d :: rest) : ∃ rest', text = d :: rest' := by
  obtain ⟨after, rfl⟩ := h.cons
  cases text with
  | nil =>
    cases heq
    exact absurd rfl hd
  | cons c text =>
    cases heq
    exact ⟨text, rfl⟩

theorem head?_append (h : Inert added) {d : Char} (hd : d ≠ Char.ofNat 10) (text : List Char) :
    (text ++ added).head? = some d ↔ text.head? = some d := by
  cases text with
  | nil =>
    obtain ⟨rest, rfl⟩ := h.cons
    simp [hd.symm]
  | cons c text => rfl

theorem head?_any_append {p : Char → Bool} (h : Inert added) (hp : p (Char.ofNat 10) = false)
    (text : List Char) : (text ++ added).head?.any p = text.head?.any p := by
  cases text with
  | nil =>
    obtain ⟨rest, rfl⟩ := h.cons
    exact hp
  | cons c text => rfl

theorem dropWhile_append {p : Char → Bool} (h : Inert added) (hp : p (Char.ofNat 10) = false)
    (text : List Char) : (text ++ added).dropWhile p = text.dropWhile p ++ added := by
  obtain ⟨rest, rfl⟩ := h.cons
  induction text with
  | nil =>
    rw [List.nil_append, List.dropWhile_cons_of_neg (by rw [hp]; exact Bool.false_ne_true)]
    rfl
  | cons c text ih =>
    rw [List.cons_append, List.dropWhile_cons, List.dropWhile_cons, ih]
    split <;> rfl

theorem takeWhile_append {p : Char → Bool} (h : Inert added) (hp : p (Char.ofNat 10) = false)
    (text : List Char) : (text ++ added).takeWhile p = text.takeWhile p := by
  obtain ⟨rest, rfl⟩ := h.cons
  induction text with
  | nil =>
    rw [List.nil_append, List.takeWhile_cons_of_neg (by rw [hp]; exact Bool.false_ne_true)]
    rfl
  | cons c text ih =>
    rw [List.cons_append, List.takeWhile_cons, List.takeWhile_cons, ih]

/-! ## Comments and quotes -/

theorem comment_end_inert (h : ∀ c ∈ added, c ≠ '*') (depth : Nat) :
    comment_end depth added = none := by
  fun_induction comment_end depth added with
  | case1 => exact absurd rfl (h '*' (by simp))
  | case2 => exact absurd rfl (h '*' (by simp))
  | case3 => exact absurd rfl (h '*' (by simp))
  | case4 depth c text _ _ _ ih => exact ih fun d hd => h d (List.mem_cons_of_mem c hd)
  | case5 => rfl

theorem comment_end_append (h : Inert added) (depth : Nat) (text : List Char) :
    comment_end depth (text ++ added) = (comment_end depth text).map (· ++ added) := by
  fun_induction comment_end depth text with
  | case1 => rfl
  | case2 depth text ih => exact ih
  | case3 depth text ih => simp only [List.cons_append, comment_end, ih]
  | case4 depth c text hclose hclose' hopen ih =>
    rw [List.cons_append, comment_end, ih]
    · intro rest hc heq
      obtain ⟨rest', hrest⟩ := h.starts (by decide) heq
      exact hopen rest' hc hrest
    · intro rest hdepth hc heq
      obtain ⟨rest', hrest⟩ := h.starts (by decide) heq
      exact hclose rest' hdepth hc hrest
    · intro depth' rest hdepth hc heq
      obtain ⟨rest', hrest⟩ := h.starts (by decide) heq
      exact hclose' depth' rest' hdepth hc hrest
  | case5 => exact comment_end_inert (fun c hc => (h.chars c hc).2.2.2) _

/-- The saved text of a scan with more text behind it. -/
def At.append (added : List Char) : At → At
  | inside => inside
  | escaped => escaped
  | closed => closed
  | gap rest line => gap (rest ++ added) line
  | dash rest line => dash (rest ++ added) line
  | comment rest line => comment (rest ++ added) line

theorem behind_append (rest : List Char) (line : Bool) (c : Char) :
    behind (rest ++ added) line c = (behind rest line c).map (At.append added) := by
  unfold behind
  split
  · rfl
  split
  · rfl
  split <;> rfl

/-- Without a quote a string is not closed, and goes on no more when it is. -/
theorem string_end_inert {escapes : Bool} {m : At} (h : ∀ c ∈ text, c ≠ quote) (hm : m ≠ .closed) :
    string_end escapes m content text = (m.after text).map (content, ·) := by
  induction text generalizing m content with
  | nil =>
    cases m with
    | closed => exact absurd rfl hm
    | _ => rfl
  | cons c text ih =>
    have hc : c ≠ quote := h c List.mem_cons_self
    have htext : ∀ d ∈ text, d ≠ quote := fun d hd => h d (List.mem_cons_of_mem c hd)
    have hbehind : ∀ {rest line m}, behind rest line c = some m →
        string_end escapes m content text = some (content, rest) := by
      intro rest line m hb
      have hafter : m.after text = some rest := behind_after hb
      have hopen : m ≠ .closed := by
        rintro rfl
        unfold behind at hb
        grind
      rw [ih htext hopen, hafter]
      rfl
    cases m with
    | closed => exact absurd rfl hm
    | inside =>
      rw [string_end, if_neg hc]
      split
      · exact ih htext (by simp)
      · exact ih htext (by simp)
    | escaped => exact ih htext (by simp)
    | gap rest line =>
      rw [string_end, if_neg hc]
      split
      · rename_i hb
        exact hbehind hb
      · rfl
    | dash rest line =>
      rw [string_end]
      split
      · exact ih htext (by simp)
      · rfl
    | comment rest line =>
      rw [string_end]
      split
      · exact ih htext (by simp)
      · exact ih htext (by simp)

/-- What follows a string goes on with the added text. -/
def followed (added : List Char) (found : List Char × List Char) : List Char × List Char :=
  (found.1, found.2 ++ added)

theorem string_end_append (h : Inert added) {escapes : Bool} {m : At} :
    string_end escapes (m.append added) content (text ++ added) =
      (string_end escapes m content text).map (followed added) := by
  have hquote : ∀ c ∈ added, c ≠ quote := fun c hc => (h.chars c hc).1
  induction text generalizing m content with
  | nil =>
    cases m with
    | closed =>
      obtain ⟨rest, rfl⟩ := h.cons
      change string_end escapes (.gap (Char.ofNat 10 :: rest) true) content rest = _
      have hrest : ∀ c ∈ rest, c ≠ quote := fun c hc => hquote c (List.mem_cons_of_mem _ hc)
      exact string_end_inert (m := .gap _ _) hrest (by simp)
    | inside => exact string_end_inert hquote (by simp [At.append])
    | escaped => exact string_end_inert hquote (by simp [At.append])
    | gap => exact string_end_inert hquote (by simp [At.append])
    | dash => exact string_end_inert hquote (by simp [At.append])
    | comment => exact string_end_inert hquote (by simp [At.append])
  | cons c text ih =>
    cases m with
    | inside =>
      simp only [At.append, List.cons_append, string_end]
      split
      · exact ih (m := .closed)
      split
      · exact ih (m := .escaped)
      · exact ih (m := .inside)
    | escaped => exact ih (m := .inside)
    | closed =>
      simp only [At.append, List.cons_append, string_end]
      split
      · exact ih (m := .inside)
      rw [← List.cons_append, behind_append]
      rcases behind (c :: text) false c with _ | m
      · rfl
      · exact ih
    | gap rest line =>
      simp only [At.append, List.cons_append, string_end]
      split
      · split
        · exact ih (m := .inside)
        · rfl
      rw [behind_append]
      rcases behind rest line c with _ | m
      · rfl
      · exact ih
    | dash rest line =>
      simp only [At.append, List.cons_append, string_end]
      split
      · exact ih (m := .comment rest line)
      · rfl
    | comment rest line =>
      simp only [At.append, List.cons_append, string_end]
      split
      · exact ih (m := .gap rest true)
      · exact ih (m := .comment rest line)

theorem quoted_end_inert (h : ∀ c ∈ text, c ≠ dquote) : quoted_end content text = none := by
  fun_induction quoted_end content text with
  | case1 => rfl
  | case2 => exact absurd rfl (h dquote (by simp))
  | case3 => rfl
  | case4 content c d text hc ih => exact ih fun e he => h e (List.mem_cons_of_mem c he)
  | case5 content c text hc ih => exact absurd rfl (h dquote (by simp))
  | case6 content c d text hc hd =>
    rw [not_not] at hc
    exact absurd hc (h c List.mem_cons_self)

theorem quoted_end_append (h : Inert added) (content text : List Char) :
    quoted_end content (text ++ added) = (quoted_end content text).map (followed added) := by
  have hdquote : ∀ c ∈ added, c ≠ dquote := fun c hc => (h.chars c hc).2.1
  fun_induction quoted_end content text with
  | case1 => exact quoted_end_inert hdquote
  | case2 content =>
    obtain ⟨rest, rfl⟩ := h.cons
    rfl
  | case3 content c hc =>
    obtain ⟨rest, rfl⟩ := h.cons
    rw [List.singleton_append, quoted_end, if_pos hc]
    exact quoted_end_inert hdquote
  | case4 content c d text hc ih =>
    simp only [List.cons_append, quoted_end, if_pos hc]
    exact ih
  | case5 content c text hc ih =>
    simp only [List.cons_append, quoted_end, if_neg hc, if_true]
    exact ih
  | case6 content c d text hc hd =>
    simp only [List.cons_append, quoted_end, if_neg hc, if_neg hd]
    rfl

theorem tag_append (h : Inert added) (text : List Char) :
    tag (text ++ added) = (tag text).map (followed added) := by
  unfold tag
  rw [dropWhile_append h (by decide), takeWhile_append h (by decide)]
  rcases text.dropWhile tag_cont with _ | ⟨c, rest⟩
  · obtain ⟨rest, rfl⟩ := h.cons
    rfl
  · by_cases hc : c = '$'
    · subst hc
      by_cases hname : (text.takeWhile tag_cont).head?.all ident_start = true
      · simp [hname, followed]
      · simp [hname]
    · rw [List.cons_append]
      split
      · rename_i heq
        cases heq
        exact absurd rfl hc
      · split
        · rename_i heq
          cases heq
          exact absurd rfl hc
        · rfl

/-- A mark that ends with a dollar does not reach into the added text. -/
theorem prefix_append (h : Inert added) (hmark : mark.getLast? = some '$') (text : List Char) :
    mark.isPrefixOf (text ++ added) = mark.isPrefixOf text := by
  rw [Bool.eq_iff_iff, List.isPrefixOf_iff_prefix, List.isPrefixOf_iff_prefix]
  constructor
  · intro hp
    rcases List.prefix_or_prefix_of_prefix hp (List.prefix_append text added) with hp' | ⟨x, rfl⟩
    · exact hp'
    · cases x using List.reverseRecOn with
      | nil => rw [List.append_nil]
      | append_singleton x c =>
        have hc : c = '$' := by simpa using hmark
        obtain ⟨after, hafter⟩ := (List.prefix_append_right_inj text).mp hp
        have hmem : c ∈ added := by simp [← hafter]
        exact absurd hc (h.chars c hmem).2.2.1
  · exact fun hp => hp.trans (List.prefix_append text added)

theorem find_mark_append (h : Inert added) (hmark : mark.getLast? = some '$')
    (content text : List Char) : find_mark mark content (text ++ added) =
      (find_mark mark content text).map (followed added) := by
  induction text generalizing content with
  | nil =>
    have hnone : ∀ (rest content : List Char), (∀ c ∈ rest, c ≠ '$') →
        find_mark mark content rest = none := by
      intro rest
      induction rest with
      | nil => exact fun _ _ => rfl
      | cons c rest ih =>
        intro content hrest
        have hno : ¬ mark.isPrefixOf (c :: rest) = true := by
          intro hp
          have hmem : '$' ∈ mark := List.mem_of_getLast? hmark
          have hin := (List.isPrefixOf_iff_prefix.mp hp).subset hmem
          exact hrest '$' hin rfl
        rw [find_mark, if_neg hno]
        exact ih _ fun d hd => hrest d (List.mem_cons_of_mem c hd)
    exact hnone added content fun c hc => (h.chars c hc).2.2.1
  | cons c text ih =>
    have hp := prefix_append h hmark (c :: text)
    rw [List.cons_append] at hp
    rw [List.cons_append, find_mark, find_mark, hp]
    split
    · rename_i hstarts
      have hlength := (List.isPrefixOf_iff_prefix.mp hstarts).length_le
      rw [← List.cons_append, List.drop_append_of_le_length hlength]
      rfl
    · exact ih _

/-! ## Numbers and operators -/

theorem digits_append {digit : Char → Bool} (h : Inert added)
    (hnewline : digit (Char.ofNat 10) = false) (hscore : digit '_' = false) (text : List Char) :
    digits digit (text ++ added) = digits digit text ++ added := by
  obtain ⟨rest, rfl⟩ := h.cons
  have hstop : ¬ digit (Char.ofNat 10) = true := by
    rw [hnewline]
    exact Bool.false_ne_true
  fun_induction digits digit text with
  | case1 d text hd ih => simp only [List.cons_append, digits, hd, if_true, ih]
  | case2 d text hd => simp only [List.cons_append, digits, hd]; rfl
  | case3 d text hone hd ih =>
    rw [List.cons_append, digits, if_pos hd, ih]
    rintro d' text' rfl
    rw [hscore] at hd
    cases hd
  | case4 d text hone hd =>
    by_cases hd' : d = '_'
    · cases text with
      | nil =>
        subst hd'
        simp only [List.cons_append, List.nil_append, digits, if_neg hstop]
      | cons d' text => exact absurd rfl (hone d' text hd')
    · rw [List.cons_append, digits, if_neg hd]
      exact fun _ _ heq => absurd heq hd'
  | case5 =>
    rw [List.nil_append, digits, if_neg hstop]
    · exact fun _ _ heq _ => absurd heq (by decide)

theorem fraction_append (h : Inert added) (text : List Char) :
    fraction (text ++ added) = fraction text ++ added := by
  have hdigits : ∀ text, digits Char.isDigit (text ++ added) = digits Char.isDigit text ++ added :=
    digits_append h (by decide) (by decide)
  obtain ⟨rest, rfl⟩ := h.cons
  match text with
  | [] => rfl
  | [c] =>
    by_cases hc : c = '.'
    · subst hc
      rfl
    · simp [fraction, hc]
  | c :: d :: text =>
    by_cases hc : c = '.'
    · subst hc
      simp only [List.cons_append, fraction]
      split
      · rfl
      split
      · exact hdigits text
      · rfl
    · simp [fraction, hc]

theorem exponent_of_other {e : Char} (he : e ∉ ['e', 'E']) (text : List Char) :
    exponent (e :: text) = e :: text := by
  match text with
  | [] => rfl
  | [c] =>
    rw [exponent, if_neg fun h => he h.1]
  | c :: d :: text => rw [exponent, if_pos he]

theorem exponent_append (h : Inert added) (text : List Char) :
    exponent (text ++ added) = exponent text ++ added := by
  have hdigits : ∀ text, digits Char.isDigit (text ++ added) = digits Char.isDigit text ++ added :=
    digits_append h (by decide) (by decide)
  have hadded : digits Char.isDigit added = added := hdigits []
  obtain ⟨rest, rfl⟩ := h.cons
  match text with
  | [] => exact exponent_of_other (by decide) rest
  | e :: text =>
    by_cases he : e ∈ ['e', 'E']
    · match text with
      | [] =>
        cases rest with
        | nil => rw [List.singleton_append, exponent, if_neg fun h => absurd h.2 (by decide)]; rfl
        | cons d rest =>
          rw [List.singleton_append, exponent, if_neg (not_not.mpr he), if_neg (by decide),
            if_neg fun h => absurd h.1 (by decide)]
          rfl
      | [c] =>
        rw [List.cons_append, List.singleton_append, exponent, exponent, if_neg (not_not.mpr he)]
        by_cases hc : c.isDigit = true
        · rw [if_pos hc, if_pos ⟨he, hc⟩, hadded]
          rfl
        · rw [if_neg hc, if_neg fun h => absurd h.2 (by decide), if_neg fun h => hc h.2]
          rfl
      | c :: d :: text =>
        simp only [List.cons_append, exponent]
        split
        · rfl
        split
        · exact hdigits (d :: text)
        split
        · exact hdigits text
        · rfl
    · rw [List.cons_append, exponent_of_other he, exponent_of_other he]
      rfl

theorem radix_digit_newline {x : Char} {digit : Char → Bool} (h : radix_digit x = some digit) :
    digit (Char.ofNat 10) = false ∧ digit '_' = false := by
  unfold radix_digit at h
  split at h
  · cases h
    decide
  split at h
  · cases h
    decide
  split at h
  · cases h
    decide
  · cases h

theorem radix_append (h : Inert added) (text : List Char) :
    radix (text ++ added) = (radix text).map (· ++ added) := by
  match text with
  | [] =>
    obtain ⟨rest, rfl⟩ := h.cons
    rfl
  | [c] =>
    obtain ⟨rest, rfl⟩ := h.cons
    by_cases hc : c = '0'
    · subst hc
      rfl
    · simp [radix, hc]
  | c :: x :: text =>
    by_cases hc : c = '0'
    · subst hc
      simp only [List.cons_append, radix]
      rcases hx : radix_digit x with _ | digit
      · rfl
      · obtain ⟨hnewline, hscore⟩ := radix_digit_newline hx
        simp only [digits_append h hnewline hscore, List.append_cancel_right_eq]
        split <;> rfl
    · simp [radix, hc]

theorem number_end_append (h : Inert added) (text : List Char) :
    number_end (text ++ added) = number_end text ++ added := by
  unfold number_end
  rw [radix_append h, digits_append h (by decide) (by decide), fraction_append h, exponent_append h]
  cases radix text <;> rfl

theorem used_append (text rest : List Char) :
    used (text ++ added) (rest ++ added) = used text rest := by
  unfold used
  rw [List.length_append, List.length_append, Nat.add_sub_add_right,
    List.take_append_of_le_length (Nat.sub_le _ _)]

theorem apart_append (h : Inert added) (token : Token) (rest : List Char) :
    apart token (rest ++ added) = (apart token rest).append added := by
  unfold apart
  rw [head?_any_append h (by decide)]
  split <;> rfl

theorem operator_append (h : Inert added) (text : List Char) :
    operator (text ++ added) = operator text := by
  unfold operator
  rw [takeWhile_append h (by decide)]

theorem special_append (h : Inert added) {c : Char} (text : List Char) :
    special c (text ++ added) = special c text := by
  cases text with
  | nil =>
    obtain ⟨after, rfl⟩ := h.cons
    simp [special, pairs]
  | cons d text => rfl

/-! ## The scan -/

theorem string_append (h : Inert added) (escapes : Bool) (opening text : List Char) :
    string escapes opening (text ++ added) = (string escapes opening text).append added := by
  unfold string
  have hend : string_end escapes .inside [] (text ++ added) =
      (string_end escapes .inside [] text).map (followed added) :=
    string_end_append h (m := .inside)
  rw [hend]
  rcases string_end escapes .inside [] text with _ | ⟨content, rest⟩ <;> rfl

theorem quoted_ident_append (h : Inert added) (opening text : List Char) :
    quoted_ident opening (text ++ added) = (quoted_ident opening text).append added := by
  unfold quoted_ident
  rw [quoted_end_append h]
  rcases quoted_end [] text with _ | ⟨_ | ⟨c, content⟩, rest⟩ <;> rfl

theorem dollar_append (h : Inert added) (text : List Char) :
    dollar (text ++ added) = (dollar text).append added := by
  unfold dollar
  rw [tag_append h]
  rcases tag text with _ | ⟨name, rest⟩
  · rw [Option.map_none]
    dsimp only
    rw [head?_any_append h (by decide), takeWhile_append h (by decide),
      dropWhile_append h (by decide), apart_append h]
    split <;> rfl
  · simp only [Option.map_some, followed]
    rw [find_mark_append h List.getLast?_concat]
    rcases find_mark ('$' :: name ++ ['$']) [] rest with _ | ⟨content, rest⟩ <;> rfl

/-- A word, or what starts with a prefix. -/
theorem plain_append (h : Inert added) (c : Char) (text : List Char) :
    Scan.token (.word (c :: (text ++ added).takeWhile ident_cont))
        ((text ++ added).dropWhile ident_cont) =
      (Scan.token (.word (c :: text.takeWhile ident_cont)) (text.dropWhile ident_cont)).append
        added := by
  rw [takeWhile_append h (by decide), dropWhile_append h (by decide)]
  rfl

theorem string_inert (h : Inert added) (escapes : Bool) (opening : List Char) :
    string escapes opening added = .error := by
  unfold string
  rw [string_end_inert (m := .inside) (fun c hc => (h.chars c hc).1) (by simp)]
  rfl

theorem word_append (h : Inert added) (c : Char) (text : List Char) :
    word c (text ++ added) = (word c text).append added := by
  have hplain := plain_append h c text
  match text with
  | [] =>
    have hempty : word c [] = .token (.word (c :: List.takeWhile ident_cont []))
        (List.dropWhile ident_cont []) := rfl
    rw [hempty, ← hplain, List.nil_append]
    obtain ⟨rest, rfl⟩ := h.cons
    cases rest with
    | nil => exact if_neg fun hd => absurd hd.2 (by decide)
    | cons e rest =>
      unfold word
      dsimp only
      rw [if_neg fun hd => absurd hd.2 (by decide), if_neg fun hd => absurd hd.2 (by decide),
        if_neg fun hd => absurd hd.2.1 (by decide), if_neg fun hd => absurd hd.2.1 (by decide)]
  | [d] =>
    have hstarts : c ∈ "bBxXnNeE".toList ↔ c ∈ "bBxXnN".toList ∨ c ∈ ['e', 'E'] := by
      have hsplit : "bBxXnNeE".toList = "bBxXnN".toList ++ ['e', 'E'] := by decide
      rw [hsplit, List.mem_append]
    have hstring := fun escapes => string_inert h escapes [c, d]
    obtain ⟨rest, rfl⟩ := h.cons
    unfold word
    rw [hplain]
    dsimp only [List.cons_append, List.nil_append]
    by_cases hd : d = quote
    · by_cases hb : c ∈ "bBxXnN".toList
      · rw [if_pos ⟨hb, hd⟩, if_pos ⟨hstarts.mpr (Or.inl hb), hd⟩, hstring]
        rfl
      by_cases he : c ∈ ['e', 'E']
      · rw [if_neg fun h => hb h.1, if_pos ⟨he, hd⟩, if_pos ⟨hstarts.mpr (Or.inr he), hd⟩, hstring]
        rfl
      · rw [if_neg fun h => hb h.1, if_neg fun h => he h.1,
          if_neg fun h => absurd h.2.2 (by decide), if_neg fun h => absurd h.2.2 (by decide),
          if_neg fun h => (hstarts.mp h.1).elim hb he]
    · rw [if_neg fun h => hd h.2, if_neg fun h => hd h.2,
        if_neg fun h => absurd h.2.2 (by decide), if_neg fun h => absurd h.2.2 (by decide),
        if_neg fun h => hd h.2]
  | d :: e :: rest =>
    unfold word
    rw [hplain]
    dsimp only [List.cons_append]
    split
    · exact string_append h false _ (e :: rest)
    split
    · exact string_append h true _ (e :: rest)
    split
    · exact string_append h false _ rest
    split
    · exact quoted_ident_append h _ rest
    · rfl

theorem scan_append (h : Inert added) (c : Char) (text : List Char) :
    scan c (text ++ added) = (scan c text).append added := by
  have hdigit := head?_any_append h (p := Char.isDigit) (by decide) text
  unfold scan
  simp only [head?_append h (show '-' ≠ Char.ofNat 10 by decide),
    head?_append h (show '*' ≠ Char.ofNat 10 by decide), hdigit]
  split
  · rfl
  split
  · rw [dropWhile_append h (by decide)]
    rfl
  split
  · rename_i hopen
    cases text with
    | nil => cases hopen.2
    | cons d text =>
      rw [List.cons_append, List.tail_cons, List.tail_cons, comment_end_append h]
      rcases comment_end 0 text with _ | rest <;> rfl
  split
  · exact string_append h false [c] text
  split
  · exact quoted_ident_append h [c] text
  split
  · exact dollar_append h text
  split
  · exact word_append h c text
  split
  · rw [← List.cons_append, number_end_append h, used_append, apart_append h]
  split
  · have hlength := ((operator_starts (c :: text)).trans (List.takeWhile_prefix _)).length_le
    rw [← List.cons_append, operator_append h, List.drop_append_of_le_length hlength]
    rfl
  · have hlength := (special_starts c text).length_le
    rw [special_append h, ← List.cons_append, List.drop_append_of_le_length hlength]
    rfl

/-- Text that is added on a new line is read after a text that can be read. -/
theorem lex_append (h : Inert added) (text : List Char) :
    lex (text ++ added) = if .error ∈ lex text then lex text else lex text ++ lex added := by
  induction text using lex_induction with
  | nil => rfl
  | skip c text rest hs ih =>
    have happend : scan c (text ++ added) = .skip (rest ++ added) := by
      rw [scan_append h, hs]
      rfl
    rw [List.cons_append, lex_skip happend, lex_skip hs, ih]
  | token c text token rest hs ih =>
    have happend : scan c (text ++ added) = .token token (rest ++ added) := by
      rw [scan_append h, hs]
      rfl
    rw [List.cons_append, lex_token happend, lex_token hs, ih]
    have htoken : Token.error ≠ token := by
      rintro rfl
      exact scan_not_error hs
    by_cases hrest : Token.error ∈ lex rest
    · rw [if_pos hrest, if_pos (List.mem_cons_of_mem _ hrest)]
    · rw [if_neg hrest, if_neg fun hmem => ?_]
      · rfl
      · rcases List.mem_cons.mp hmem with heq | hmem
        · exact htoken heq
        · exact hrest hmem
  | error c text hs =>
    have happend : scan c (text ++ added) = .error := by
      rw [scan_append h, hs]
      rfl
    rw [List.cons_append, lex_error happend, lex_error hs, if_pos (List.mem_singleton_self _)]

end

end pg
