-- Letter case: only the tags of dollar quotes depend on it, and a text that differs
-- from another one in the case of letters after a quote has the same tokens but for case.
import SaasBackend.PgTokens

namespace pg

/-! ## Characters -/

section

variable {a b c m : Char} {text text' rest : List Char}

theorem toNat_toLower (c : Char) : c.toLower.toNat =
    if 65 ≤ c.toNat ∧ c.toNat ≤ 90 then c.toNat + 32 else c.toNat := by
  have hupper : (c.val ≥ 'A'.val ∧ c.val ≤ 'Z'.val) ↔ 65 ≤ c.toNat ∧ c.toNat ≤ 90 := Iff.rfl
  unfold Char.toLower
  split
  · rename_i h
    have hle : c.val.toNat ≤ 90 := (hupper.mp h).2
    rw [if_pos (hupper.mp h)]
    change (c.val + 32).toNat = c.val.toNat + 32
    rw [UInt32.toNat_add]
    change (c.val.toNat + 32) % 2 ^ 32 = _
    omega
  · rename_i h
    rw [if_neg (mt hupper.mpr h)]

/-- What is no letter stays, and nothing becomes it. -/
theorem toLower_eq_iff (hm : m.isAlpha = false) : c.toLower = m ↔ c = m := by
  have halpha : ¬ (65 ≤ m.toNat ∧ m.toNat ≤ 90 ∨ 97 ≤ m.toNat ∧ m.toNat ≤ 122) := by
    rw [← isAlpha_iff, hm]
    exact Bool.false_ne_true
  rw [← Char.toNat_inj, ← Char.toNat_inj, toNat_toLower]
  split <;> omega

/-- A test that does not tell the case of any letter. -/
theorem test_toLower {p : Char → Bool}
    (h : "ABCDEFGHIJKLMNOPQRSTUVWXYZ".toList.all (fun d => p d.toLower = p d) = true) :
    p c.toLower = p c := by
  by_cases hc : 65 ≤ c.toNat ∧ c.toNat ≤ 90
  · have hmem : c ∈ "ABCDEFGHIJKLMNOPQRSTUVWXYZ".toList := by
      have hcode : c.toNat ∈ "ABCDEFGHIJKLMNOPQRSTUVWXYZ".toList.map Char.toNat := by
        have hcodes : "ABCDEFGHIJKLMNOPQRSTUVWXYZ".toList.map Char.toNat = List.range' 65 26 := by
          decide +kernel
        rw [hcodes, List.mem_range'_1]
        omega
      obtain ⟨d, hd, heq⟩ := List.mem_map.mp hcode
      rw [← Char.toNat_inj.mp heq]
      exact hd
    exact of_decide_eq_true (List.all_eq_true.mp h c hmem)
  · have hsame : c.toLower = c := by rw [← Char.toNat_inj, toNat_toLower, if_neg hc]
    rw [hsame]

@[simp] theorem space_toLower : space c.toLower = space c := test_toLower (by decide)

@[simp] theorem newline_toLower : newline c.toLower = newline c := test_toLower (by decide)

@[simp] theorem ident_start_toLower : ident_start c.toLower = ident_start c :=
  test_toLower (by decide)

@[simp] theorem ident_cont_toLower : ident_cont c.toLower = ident_cont c := test_toLower (by decide)

@[simp] theorem op_char_toLower : op_char c.toLower = op_char c := test_toLower (by decide)

@[simp] theorem isDigit_toLower : c.toLower.isDigit = c.isDigit :=
  test_toLower (p := Char.isDigit) (by decide)

@[simp] theorem toLower_eq_quote : c.toLower = quote ↔ c = quote := toLower_eq_iff (by decide)

@[simp] theorem toLower_eq_dquote : c.toLower = dquote ↔ c = dquote := toLower_eq_iff (by decide)

@[simp] theorem toLower_eq_backslash : c.toLower = backslash ↔ c = backslash :=
  toLower_eq_iff (by decide)

@[simp] theorem toLower_eq_dash : c.toLower = '-' ↔ c = '-' := toLower_eq_iff (by decide)

@[simp] theorem toLower_eq_star : c.toLower = '*' ↔ c = '*' := toLower_eq_iff (by decide)

@[simp] theorem toLower_eq_slash : c.toLower = '/' ↔ c = '/' := toLower_eq_iff (by decide)

@[simp] theorem toLower_eq_dot : c.toLower = '.' ↔ c = '.' := toLower_eq_iff (by decide)

@[simp] theorem toLower_eq_score : c.toLower = '_' ↔ c = '_' := toLower_eq_iff (by decide)

@[simp] theorem toLower_eq_dollar : c.toLower = '$' ↔ c = '$' := toLower_eq_iff (by decide)

@[simp] theorem toLower_eq_ampersand : c.toLower = '&' ↔ c = '&' := toLower_eq_iff (by decide)

/-- The text with its ASCII letters in lower case. -/
def fold (text : List Char) : List Char := text.map Char.toLower

@[simp] theorem fold_nil : fold [] = [] := rfl

@[simp] theorem fold_cons : fold (c :: text) = c.toLower :: fold text := rfl

@[simp] theorem fold_append : fold (text ++ text') = fold text ++ fold text' := List.map_append

@[simp] theorem fold_length : (fold text).length = text.length := List.length_map ..

theorem fold_head? : (fold text).head? = text.head?.map Char.toLower := List.head?_map ..

theorem fold_takeWhile {p : Char → Bool} (hp : ∀ c : Char, p c.toLower = p c) :
    (fold text).takeWhile p = fold (text.takeWhile p) := by
  have hsame : p ∘ Char.toLower = p := funext hp
  rw [fold, fold, List.takeWhile_map, hsame]

theorem fold_dropWhile {p : Char → Bool} (hp : ∀ c : Char, p c.toLower = p c) :
    (fold text).dropWhile p = fold (text.dropWhile p) := by
  have hsame : p ∘ Char.toLower = p := funext hp
  rw [fold, fold, List.dropWhile_map, hsame]

theorem fold_take (n : Nat) : (fold text).take n = fold (text.take n) := List.map_take.symm

theorem fold_drop (n : Nat) : (fold text).drop n = fold (text.drop n) := List.map_drop.symm

theorem fold_any_head {p : Char → Bool} (hp : ∀ c : Char, p c.toLower = p c) :
    (fold text).head?.any p = text.head?.any p := by
  rw [fold_head?, Option.any_map]
  exact congrArg (text.head?.any ·) (funext hp)

/-- Two characters that are no letters stand in the folded text where they stood. -/
theorem no_mark_fold (ha : a.isAlpha = false) (hb : b.isAlpha = false)
    (h : ∀ rest, c = a → text = b :: rest → False) :
    ∀ rest, c.toLower = a → fold text = b :: rest → False := by
  intro rest hc htext
  cases text with
  | nil => cases htext
  | cons d text =>
    obtain ⟨hd, _⟩ := List.cons.inj htext
    exact h text ((toLower_eq_iff ha).mp hc) (by rw [(toLower_eq_iff hb).mp hd])

end

/-! ## Comments and quotes -/

def At.fold : At → At
  | inside => inside
  | escaped => escaped
  | closed => closed
  | gap rest line => gap (pg.fold rest) line
  | dash rest line => dash (pg.fold rest) line
  | comment rest line => comment (pg.fold rest) line

section

variable {c : Char} {text rest content : List Char} {m : At}

theorem comment_end_fold (depth : Nat) (text : List Char) :
    comment_end depth (fold text) = (comment_end depth text).map fold := by
  fun_induction comment_end depth text with
  | case1 text => rfl
  | case2 depth text ih => exact ih
  | case3 depth text ih =>
    change comment_end depth ('/' :: '*' :: fold text) = _
    rw [comment_end, ih]
  | case4 depth c text hend hend' hmark ih =>
    rw [fold_cons, comment_end, ih]
    · exact no_mark_fold (by decide) (by decide) hmark
    · exact fun rest hdepth =>
        no_mark_fold (by decide) (by decide) (fun rest => hend rest hdepth) rest
    · exact fun n rest hdepth =>
        no_mark_fold (by decide) (by decide) (fun rest => hend' n rest hdepth) rest
  | case5 depth => cases depth <;> rfl

theorem behind_fold (line : Bool) :
    behind (fold rest) line c.toLower = (behind rest line c).map At.fold := by
  unfold behind
  simp only [newline_toLower, space_toLower, toLower_eq_dash]
  split_ifs <;> rfl

theorem string_end_fold (escapes : Bool) (m : At) (content text : List Char) :
    string_end escapes m.fold (fold content) (fold text) =
      (string_end escapes m content text).map (Prod.map fold fold) := by
  induction text generalizing m content with
  | nil => cases m <;> rfl
  | cons c text ih =>
    have hkeep : ∀ m : At, string_end escapes m.fold (fold content ++ [c.toLower]) (fold text) =
        (string_end escapes m (content ++ [c]) text).map (Prod.map fold fold) := by
      intro m
      rw [← ih, fold_append]
      rfl
    cases m with
    | inside =>
      simp only [At.fold, fold_cons, string_end, toLower_eq_quote, toLower_eq_backslash]
      split_ifs
      · exact ih .closed _
      · exact hkeep .escaped
      · exact hkeep .inside
    | escaped => exact hkeep .inside
    | closed =>
      simp only [At.fold, fold_cons, string_end, toLower_eq_quote]
      split_ifs
      · exact hkeep .inside
      · rw [← fold_cons, behind_fold]
        rcases behind (c :: text) false c with _ | m
        · rfl
        · exact ih m _
    | gap rest line =>
      simp only [At.fold, fold_cons, string_end, toLower_eq_quote]
      split_ifs
      · exact ih .inside _
      · rfl
      · rw [behind_fold]
        rcases behind rest line c with _ | m
        · rfl
        · exact ih m _
    | dash rest line =>
      simp only [At.fold, fold_cons, string_end, toLower_eq_dash]
      split_ifs
      · exact ih (.comment rest line) _
      · rfl
    | comment rest line =>
      simp only [At.fold, fold_cons, string_end, newline_toLower]
      split_ifs
      · exact ih (.gap rest true) _
      · exact ih (.comment rest line) _

theorem quoted_end_fold (content text : List Char) :
    quoted_end (fold content) (fold text) =
      (quoted_end content text).map (Prod.map fold fold) := by
  fun_induction quoted_end content text with
  | case1 => rfl
  | case2 content =>
    rw [fold_cons, fold_nil, quoted_end, if_pos (by decide)]
    rfl
  | case3 content c hc =>
    rw [fold_cons, fold_nil, quoted_end, if_neg (mt toLower_eq_dquote.mp hc)]
    rfl
  | case4 content c d text hc ih =>
    rw [fold_append] at ih
    rw [fold_cons, fold_cons, quoted_end, if_pos (mt toLower_eq_dquote.mp hc)]
    exact ih
  | case5 content c text hc ih =>
    rw [not_not] at hc
    rw [fold_append] at ih
    rw [fold_cons, fold_cons, quoted_end, hc, if_neg (by decide), if_pos (by decide)]
    rw [hc] at ih
    exact ih
  | case6 content c d text hc hd =>
    rw [not_not] at hc
    rw [fold_cons, fold_cons, quoted_end, hc, if_neg (by decide),
      if_neg (mt toLower_eq_dquote.mp hd)]
    rfl

end

/-! ## Numbers and operators -/

section

variable {c : Char} {text rest : List Char} {digit : Char → Bool}

theorem digits_fold (hdigit : ∀ c : Char, digit c.toLower = digit c) (text : List Char) :
    digits digit (fold text) = fold (digits digit text) := by
  fun_induction digits digit text with
  | case1 d text hd ih =>
    change digits digit ('_' :: d.toLower :: fold text) = _
    rw [digits, hdigit, if_pos hd, ih]
  | case2 d text hd =>
    change digits digit ('_' :: d.toLower :: fold text) = _
    rw [digits, hdigit, if_neg hd]
    rfl
  | case3 d text hmark hd ih =>
    rw [fold_cons, digits, hdigit, if_pos hd, ih]
    intro e rest hd htext
    cases text with
    | nil => cases htext
    | cons e text => exact hmark e text (toLower_eq_score.mp hd) rfl
  | case4 d text hmark hd =>
    rw [fold_cons, digits, hdigit, if_neg hd]
    · intro e rest hd htext
      cases text with
      | nil => cases htext
      | cons e text => exact hmark e text (toLower_eq_score.mp hd) rfl
  | case5 => rfl

theorem fraction_fold (text : List Char) : fraction (fold text) = fold (fraction text) := by
  rcases text with _ | ⟨c, _ | ⟨d, text⟩⟩
  · rfl
  · by_cases hc : c = '.'
    · rw [hc]
      rfl
    · simp [fraction, hc]
  · by_cases hc : c = '.'
    · rw [hc]
      change fraction ('.' :: d.toLower :: fold text) = _
      simp only [fraction, toLower_eq_dot, isDigit_toLower]
      split_ifs
      · rfl
      · exact digits_fold (fun _ => isDigit_toLower) text
      · rfl
    · simp [fraction, hc]

theorem mem_toLower {l : List Char} (h : "ABCDEFGHIJKLMNOPQRSTUVWXYZ".toList.all
    (fun d => decide (d.toLower ∈ l) = decide (d ∈ l)) = true) : c.toLower ∈ l ↔ c ∈ l :=
  decide_eq_decide.mp (test_toLower (p := fun d => decide (d ∈ l)) h)

theorem exponent_fold (text : List Char) : exponent (fold text) = fold (exponent text) := by
  have hletter : ∀ c : Char, c.toLower ∈ ['e', 'E'] ↔ c ∈ ['e', 'E'] := fun _ =>
    mem_toLower (by decide)
  have hsign : ∀ c : Char, c.toLower ∈ ['+', '-'] ↔ c ∈ ['+', '-'] := fun _ =>
    mem_toLower (by decide)
  rcases text with _ | ⟨c, _ | ⟨d, _ | ⟨e, text⟩⟩⟩
  · rfl
  · rfl
  · simp only [fold_cons, fold_nil, exponent, hletter, isDigit_toLower]
    split_ifs <;> rfl
  · simp only [fold_cons, exponent, hletter, hsign, isDigit_toLower]
    split_ifs
    · exact digits_fold (fun _ => isDigit_toLower) (e :: text)
    · exact digits_fold (fun _ => isDigit_toLower) text
    · rfl
    · rfl

theorem radix_digit_toLower : radix_digit c.toLower = radix_digit c := by
  have hx : c.toLower ∈ ['x', 'X'] ↔ c ∈ ['x', 'X'] := mem_toLower (by decide)
  have ho : c.toLower ∈ ['o', 'O'] ↔ c ∈ ['o', 'O'] := mem_toLower (by decide)
  have hb : c.toLower ∈ ['b', 'B'] ↔ c ∈ ['b', 'B'] := mem_toLower (by decide)
  unfold radix_digit
  simp only [hx, ho, hb]

theorem radix_digit_fold (h : radix_digit c = some digit) (d : Char) :
    digit d.toLower = digit d := by
  unfold radix_digit at h
  split_ifs at h <;> cases h
  · exact test_toLower (by decide)
  · exact test_toLower (by decide)
  · exact test_toLower (by decide)

theorem radix_fold (text : List Char) : radix (fold text) = (radix text).map fold := by
  rcases text with _ | ⟨z, _ | ⟨x, text⟩⟩
  · rfl
  · simp [radix]
  · by_cases hz : z = '0'
    · rw [hz]
      change radix ('0' :: x.toLower :: fold text) = _
      rw [radix, radix, radix_digit_toLower]
      rcases hx : radix_digit x with _ | digit
      · rfl
      · have hrest := digits_fold (radix_digit_fold hx) text
        have hsame : fold (digits digit text) = fold text ↔ digits digit text = text := by
          constructor
          · intro h
            have hlength := congrArg List.length h
            rw [fold_length, fold_length] at hlength
            exact (digits_suffix digit text).eq_of_length hlength
          · intro h
            rw [h]
        simp only [hrest, hsame]
        split_ifs <;> rfl
    · have hz' : ¬ z.toLower = '0' := mt (toLower_eq_iff (by decide)).mp hz
      simp [radix, hz, hz']

theorem number_end_fold (text : List Char) : number_end (fold text) = fold (number_end text) := by
  unfold number_end
  rw [radix_fold, digits_fold (fun _ => isDigit_toLower), fraction_fold, exponent_fold]
  cases radix text <;> rfl

theorem used_fold : used (fold text) (fold rest) = fold (used text rest) := by
  rw [used, used, fold_length, fold_length, fold_take]

theorem before_comment_fold (text : List Char) :
    before_comment (fold text) = fold (before_comment text) := by
  fun_induction before_comment text with
  | case1 => rfl
  | case2 => rfl
  | case3 c text hline hblock ih =>
    rw [fold_cons, before_comment, ih]
    · rfl
    · exact no_mark_fold (by decide) (by decide) hline
    · exact no_mark_fold (by decide) (by decide) hblock
  | case4 => rfl

theorem without_signs_fold (op : List Char) :
    without_signs (fold op) = fold (without_signs op) := by
  have hextra : ∀ c : Char, decide (c.toLower ∈ extra_op_chars) = decide (c ∈ extra_op_chars) :=
    fun _ => test_toLower (p := fun d => decide (d ∈ extra_op_chars)) (by decide)
  have hsigns : ∀ c : Char, decide (c.toLower ∈ ['+', '-']) = decide (c ∈ ['+', '-']) :=
    fun _ => test_toLower (p := fun d => decide (d ∈ ['+', '-'])) (by decide)
  have hany : (fold op).any (· ∈ extra_op_chars) = op.any (· ∈ extra_op_chars) := by
    rw [fold, List.any_map]
    exact congrArg op.any (funext hextra)
  have hreverse : (fold op).reverse = fold op.reverse := List.map_reverse.symm
  unfold without_signs
  rw [hany, hreverse, fold_dropWhile hsigns]
  split_ifs
  · rfl
  · rcases op.reverse.dropWhile (· ∈ ['+', '-']) with _ | ⟨d, kept⟩
    · exact fold_take 1
    · exact List.map_reverse.symm

theorem operator_fold (text : List Char) : operator (fold text) = fold (operator text) := by
  rw [operator, fold_takeWhile fun _ => op_char_toLower, before_comment_fold, without_signs_fold,
    operator]

theorem eq_fold_iff {mark : List Char} (h : ∀ d ∈ mark, d.isAlpha = false) :
    mark = fold text ↔ mark = text := by
  induction mark generalizing text with
  | nil =>
    cases text with
    | nil => rfl
    | cons c text => exact iff_of_false (by simp) (by simp)
  | cons d mark ih =>
    cases text with
    | nil => rfl
    | cons c text =>
      have hd : d = c.toLower ↔ d = c :=
        eq_comm.trans ((toLower_eq_iff (h d List.mem_cons_self)).trans eq_comm)
      rw [fold_cons, List.cons.injEq, List.cons.injEq, hd,
        ih fun e he => h e (List.mem_cons_of_mem d he)]

/-- No special character is a letter. -/
theorem special_fold (c : Char) (text : List Char) :
    special c.toLower (fold text) = fold (special c text) := by
  have hall : pairs.all (fun pair => pair.all fun d => !d.isAlpha) = true := by decide
  have hletters : ∀ pair ∈ pairs, ∀ d ∈ pair, d.isAlpha = false := by simpa using hall
  have hstart : c.toLower :: (fold text).take 1 = fold (c :: text.take 1) := by
    rw [fold_take, fold_cons]
  have hany : pairs.any (· = c.toLower :: (fold text).take 1) =
      pairs.any (· = c :: text.take 1) := by
    rw [hstart]
    rw [Bool.eq_iff_iff, List.any_eq_true, List.any_eq_true]
    refine exists_congr fun pair => and_congr_right fun hpair => ?_
    rw [decide_eq_true_iff, decide_eq_true_iff, eq_fold_iff (hletters pair hpair)]
  unfold special
  rw [hany, hstart]
  split_ifs <;> rfl

end

/-! ## The scan -/

/-- The token with its texts in lower case. -/
def Token.fold : Token → Token
  | word text => word (pg.fold text)
  | quoted opening content => quoted (pg.fold opening) (pg.fold content)
  | literal opening content => literal (pg.fold opening) (pg.fold content)
  | number text => number (pg.fold text)
  | param digits => param (pg.fold digits)
  | symbol text => symbol (pg.fold text)
  | error => error

def Scan.fold : Scan → Scan
  | .skip rest => .skip (pg.fold rest)
  | .token t rest => .token t.fold (pg.fold rest)
  | .error => .error

section

variable {c d : Char} {text text' rest opening : List Char} {token : Token} {b : Bool}

theorem apart_fold (token : Token) (rest : List Char) :
    apart token.fold (fold rest) = (apart token rest).fold := by
  rw [apart, fold_any_head fun _ => ident_start_toLower, apart]
  split_ifs <;> rfl

theorem string_fold (escapes : Bool) (opening text : List Char) :
    string escapes (fold opening) (fold text) = (string escapes opening text).fold := by
  have hend : string_end escapes .inside [] (fold text) =
      (string_end escapes .inside [] text).map (Prod.map fold fold) :=
    string_end_fold escapes .inside [] text
  rw [string, string, hend]
  rcases string_end escapes .inside [] text with _ | ⟨content, rest⟩ <;> rfl

theorem quoted_ident_fold (opening text : List Char) :
    quoted_ident (fold opening) (fold text) = (quoted_ident opening text).fold := by
  have hend := quoted_end_fold [] text
  rw [fold_nil] at hend
  rw [quoted_ident, quoted_ident, hend]
  rcases quoted_end [] text with _ | ⟨_ | ⟨c, content⟩, rest⟩ <;> rfl

theorem word_fold (c : Char) (text : List Char) :
    word c.toLower (fold text) = (word c text).fold := by
  have hplain : Scan.token (.word (c.toLower :: (fold text).takeWhile ident_cont))
      ((fold text).dropWhile ident_cont) =
        (Scan.token (.word (c :: text.takeWhile ident_cont)) (text.dropWhile ident_cont)).fold := by
    rw [fold_takeWhile fun _ => ident_cont_toLower, fold_dropWhile fun _ => ident_cont_toLower]
    rfl
  have hliteral : c.toLower ∈ "bBxXnN".toList ↔ c ∈ "bBxXnN".toList := mem_toLower (by decide)
  have hescape : c.toLower ∈ ['e', 'E'] ↔ c ∈ ['e', 'E'] := mem_toLower (by decide)
  have hunicode : c.toLower ∈ ['u', 'U'] ↔ c ∈ ['u', 'U'] := mem_toLower (by decide)
  have hany : c.toLower ∈ "bBxXnNeE".toList ↔ c ∈ "bBxXnNeE".toList := mem_toLower (by decide)
  unfold pg.word
  dsimp only
  rw [hplain]
  rcases text with _ | ⟨d, _ | ⟨e, text⟩⟩
  · rfl
  · simp only [fold_cons, fold_nil, hany, toLower_eq_quote]
    split_ifs <;> rfl
  · simp only [fold_cons, hliteral, hescape, hunicode, toLower_eq_quote, toLower_eq_dquote,
      toLower_eq_ampersand]
    split_ifs
    · exact string_fold false [c, d] (e :: text)
    · exact string_fold true [c, d] (e :: text)
    · exact string_fold false [c, d, e] text
    · exact quoted_ident_fold [c, d, e] text
    · rfl

theorem scan_fold (c : Char) (text : List Char) (hc : c ≠ '$') :
    scan c.toLower (fold text) = (scan c text).fold := by
  have hhead : ∀ m : Char, m.isAlpha = false →
      ((fold text).head? = some m ↔ text.head? = some m) := by
    intro m hm
    cases text with
    | nil => rfl
    | cons d text =>
      rw [fold_cons, List.head?_cons, List.head?_cons, Option.some.injEq, Option.some.injEq,
        toLower_eq_iff hm]
  have htail : (fold text).tail = fold text.tail := List.map_tail.symm
  have hline : (fold text).dropWhile (fun d => !newline d) =
      fold (text.dropWhile fun d => !newline d) :=
    fold_dropWhile fun _ => congrArg Bool.not newline_toLower
  unfold scan
  simp only [space_toLower, toLower_eq_dash, toLower_eq_slash, toLower_eq_quote,
    toLower_eq_dquote, toLower_eq_dollar, ident_start_toLower, isDigit_toLower, toLower_eq_dot,
    op_char_toLower, hhead '-' (by decide), hhead '*' (by decide), htail, comment_end_fold,
    hline, fold_any_head fun _ => isDigit_toLower, if_neg hc]
  split_ifs
  · rfl
  · rfl
  · rcases comment_end 0 text.tail with _ | rest <;> rfl
  · exact string_fold false [c] text
  · exact quoted_ident_fold [c] text
  · exact word_fold c text
  · rw [← fold_cons, number_end_fold, used_fold]
    exact apart_fold (.number _) _
  · rw [← fold_cons, operator_fold, fold_length, fold_drop]
    rfl
  · rw [special_fold, ← fold_cons, fold_length, fold_drop]
    rfl

end

/-! ## Letters after a quote -/

/-- Two texts that differ in the case of letters only, each of them in a run that
starts after a quote; `run` says that one may go on. -/
inductive Recased : Bool → List Char → List Char → Prop
  | nil (run : Bool) : Recased run [] []
  | quote {run run' : Bool} {text text' : List Char} (h : Recased run' text text') :
    Recased run (quote :: text) (quote :: text')
  | same {c : Char} {text text' : List Char} (h : Recased false text text') :
    Recased false (c :: text) (c :: text')
  | letter {c c' : Char} {text text' : List Char} (hc : c.isAlpha = true ∨ c = '_')
    (hlower : c.toLower = c'.toLower) (h : Recased true text text') :
    Recased true (c :: text) (c' :: text')

namespace Recased

variable {run : Bool} {c : Char} {text text' rest name mark content content' : List Char}

theorem fold_eq (h : Recased run text text') : fold text = fold text' := by
  induction h with
  | nil => rfl
  | quote h ih => rw [fold_cons, fold_cons, ih]
  | same h ih => rw [fold_cons, fold_cons, ih]
  | letter hc hlower h ih => rw [fold_cons, fold_cons, hlower, ih]

theorem drop (h : Recased run text text') (n : Nat) :
    ∃ run', Recased run' (text.drop n) (text'.drop n) := by
  induction n generalizing run text text' with
  | zero => exact ⟨run, h⟩
  | succ n ih =>
    cases h with
    | nil run => exact ⟨run, .nil run⟩
    | quote h => exact ih h
    | same h => exact ih h
    | letter hc hlower h => exact ih h

theorem take (h : Recased run text text') (n : Nat) :
    Recased run (text.take n) (text'.take n) := by
  induction n generalizing run text text' with
  | zero => exact .nil run
  | succ n ih =>
    cases h with
    | nil run => exact .nil run
    | quote h => exact .quote (ih h)
    | same h => exact .same (ih h)
    | letter hc hlower h => exact .letter hc hlower (ih h)

theorem refl (text : List Char) : Recased false text text := by
  induction text with
  | nil => exact .nil false
  | cons c text ih => exact .same ih

theorem append_left (before : List Char) (h : Recased false text text') :
    Recased false (before ++ text) (before ++ text') := by
  induction before with
  | nil => exact h
  | cons c before ih => exact .same ih

/-- A run with other letter case, up to the quote behind it. -/
theorem of_letters (hletters : ∀ c ∈ content, c.isAlpha = true ∨ c = '_')
    (hfold : fold content = fold content') (h : Recased run text text') :
    Recased true (content ++ pg.quote :: text) (content' ++ pg.quote :: text') := by
  induction content generalizing content' with
  | nil =>
    rw [List.map_eq_nil_iff.mp hfold.symm]
    exact .quote h
  | cons c content ih =>
    cases content' with
    | nil => cases hfold
    | cons c' content' =>
      obtain ⟨hc, hrest⟩ := List.cons.inj hfold
      exact .letter (hletters c List.mem_cons_self) hc
        (ih (fun d hd => hletters d (List.mem_cons_of_mem c hd)) hrest)

/-- The first characters, and what they ask of the texts behind them. -/
theorem uncons (h : Recased run (c :: text) text') :
    ∃ c' rest run', text' = c' :: rest ∧ c.toLower = c'.toLower ∧ Recased run' text rest ∧
      ∀ {after after' : List Char}, Recased run' after after' →
        Recased run (c :: after) (c' :: after') := by
  cases h with
  | quote h => exact ⟨_, _, _, rfl, rfl, h, .quote⟩
  | same h => exact ⟨_, _, _, rfl, rfl, h, .same⟩
  | letter hc hlower h => exact ⟨_, _, _, rfl, hlower, h, .letter hc hlower⟩

/-- Two characters that are no letters stand where they stand in the other text. -/
theorem no_mark {a b c' : Char} (h : fold (c :: text) = fold (c' :: text'))
    (ha : a.isAlpha = false) (hb : b.isAlpha = false)
    (hmark : ∀ rest, c = a → text = b :: rest → False) :
    ∀ rest, c' = a → text' = b :: rest → False := by
  rintro rest rfl rfl
  obtain ⟨hc, htext⟩ := List.cons.inj h
  exact no_mark_fold ha hb hmark (fold rest) (hc.trans ((toLower_eq_iff ha).mpr rfl))
    (htext.trans (congrArg (· :: fold rest) ((toLower_eq_iff hb).mpr rfl)))

/-- What is neither a quote nor part of a run is the same in both texts. -/
theorem of_mark (h : Recased run (c :: text) text') (hquote : c ≠ pg.quote)
    (hletter : ¬ (c.isAlpha = true ∨ c = '_')) :
    ∃ rest, text' = c :: rest ∧ run = false ∧ Recased false text rest := by
  cases h with
  | quote => exact absurd rfl hquote
  | same h => exact ⟨_, rfl, rfl, h⟩
  | letter hc => exact absurd hc hletter

/-- What is left of the two texts after as much of each. -/
theorem suffix {rest' : List Char} (h : Recased run text text') (hrest : rest <:+ text)
    (hrest' : rest' <:+ text') (hlength : rest.length = rest'.length) :
    ∃ run', Recased run' rest rest' := by
  obtain ⟨before, rfl⟩ := hrest
  obtain ⟨before', rfl⟩ := hrest'
  have hfold := congrArg List.length h.fold_eq
  rw [fold_length, fold_length, List.length_append, List.length_append] at hfold
  obtain ⟨run', hdrop⟩ := h.drop before.length
  rw [List.drop_left, List.drop_append_of_le_length (by omega),
    List.drop_of_length_le (by omega), List.nil_append] at hdrop
  exact ⟨run', hdrop⟩

/-- Up to a quote, texts that are not in a run are the same. -/
theorem while_eq {p : Char → Bool} (h : Recased false text text') (hp : p pg.quote = false) :
    text.takeWhile p = text'.takeWhile p ∧
      Recased false (text.dropWhile p) (text'.dropWhile p) := by
  generalize hrun : false = run at h
  induction h with
  | nil => exact ⟨rfl, hrun ▸ .nil false⟩
  | quote h =>
    have hquote : ¬ p pg.quote = true := by
      rw [hp]
      exact Bool.false_ne_true
    rw [List.takeWhile_cons_of_neg hquote, List.takeWhile_cons_of_neg hquote,
      List.dropWhile_cons_of_neg hquote, List.dropWhile_cons_of_neg hquote]
    exact ⟨rfl, .quote h⟩
  | @same c text text' h ih =>
    by_cases hc : p c = true
    · rw [List.takeWhile_cons_of_pos hc, List.takeWhile_cons_of_pos hc,
        List.dropWhile_cons_of_pos hc, List.dropWhile_cons_of_pos hc, (ih rfl).1]
      exact ⟨rfl, (ih rfl).2⟩
    · rw [List.takeWhile_cons_of_neg hc, List.takeWhile_cons_of_neg hc,
        List.dropWhile_cons_of_neg hc, List.dropWhile_cons_of_neg hc]
      exact ⟨rfl, .same h⟩
  | letter => cases hrun

theorem prefix_iff (h : Recased false text text') (hmark : pg.quote ∉ mark) :
    mark.isPrefixOf text = mark.isPrefixOf text' := by
  induction mark generalizing text text' with
  | nil => rw [List.isPrefixOf_nil_left, List.isPrefixOf_nil_left]
  | cons d mark ih =>
    cases h with
    | nil => rfl
    | quote h =>
      have hd : (d == pg.quote) = false :=
        beq_eq_false_iff_ne.mpr (List.ne_of_not_mem_cons hmark).symm
      rw [List.isPrefixOf, List.isPrefixOf, hd, Bool.false_and, Bool.false_and]
    | same h =>
      rw [List.isPrefixOf, List.isPrefixOf, ih h (List.not_mem_of_not_mem_cons hmark)]

/-- A mark with a dollar in front is no part of a run. -/
theorem mark_iff (h : Recased run text text') (hmark : pg.quote ∉ mark) :
    ('$' :: mark).isPrefixOf text = ('$' :: mark).isPrefixOf text' := by
  cases h with
  | nil => rfl
  | quote => rfl
  | same h => rw [List.isPrefixOf, List.isPrefixOf, h.prefix_iff hmark]
  | @letter c c' text text' hc hlower h =>
    have hne : ∀ d : Char, d.toLower = c.toLower → ('$' == d) = false := by
      rintro d hd
      rw [beq_eq_false_iff_ne]
      rintro rfl
      have hc' : c = '$' := toLower_eq_dollar.mp hd.symm
      rw [hc'] at hc
      exact absurd hc (by decide)
    rw [List.isPrefixOf, List.isPrefixOf, hne c rfl, hne c' hlower.symm, Bool.false_and,
      Bool.false_and]

theorem find_mark_fold (h : Recased run text text') (hmark : pg.quote ∉ mark)
    (hcontent : fold content = fold content') :
    (find_mark ('$' :: mark) content text).map (Prod.map fold fold) =
      (find_mark ('$' :: mark) content' text').map (Prod.map fold fold) := by
  induction text generalizing run text' content content' with
  | nil =>
    cases h
    rfl
  | cons c text ih =>
    have hfold := h.fold_eq
    obtain ⟨run', htail⟩ := h.drop 1
    cases text' with
    | nil => cases hfold
    | cons c' text' =>
      obtain ⟨hc, _⟩ := List.cons.inj hfold
      rw [find_mark, find_mark, h.mark_iff hmark]
      split_ifs
      · rw [Option.map_some, Option.map_some, Prod.map, Prod.map, hcontent, ← fold_drop, hfold,
          fold_drop]
      · refine ih htail ?_
        rw [fold_append, fold_append, hcontent, fold_cons, fold_cons, hc]

/-- The tag of a dollar quote is the same one. -/
theorem tag_eq (h : Recased false text text') : tag text = none ∧ tag text' = none ∨
    ∃ name rest rest', tag text = some (name, rest) ∧ tag text' = some (name, rest') ∧
      pg.quote ∉ name ∧ Recased false rest rest' := by
  obtain ⟨hname, hrest⟩ := h.while_eq (p := tag_cont) (by decide)
  have hquote : pg.quote ∉ text.takeWhile tag_cont := fun hmem =>
    absurd (List.mem_takeWhile_imp hmem) (by decide)
  unfold tag
  rw [← hname]
  generalize text.dropWhile tag_cont = after at hrest
  generalize text'.dropWhile tag_cont = after' at hrest
  cases hrest with
  | nil => exact Or.inl ⟨rfl, rfl⟩
  | quote => exact Or.inl ⟨rfl, rfl⟩
  | @same c rest rest' hrest =>
    by_cases hc : c = '$'
    · rw [hc]
      dsimp only
      split_ifs
      · exact Or.inr ⟨_, rest, rest', rfl, rfl, hquote, hrest⟩
      · exact Or.inl ⟨rfl, rfl⟩
    · refine Or.inl ⟨?_, ?_⟩
      · split
        · rename_i heq
          exact absurd (List.cons.inj heq).1 hc
        · rfl
      · split
        · rename_i heq
          exact absurd (List.cons.inj heq).1 hc
        · rfl

theorem dollar_fold (h : Recased false text text') : (dollar text).fold = (dollar text').fold := by
  unfold dollar
  rcases h.tag_eq with ⟨hnone, hnone'⟩ | ⟨name, rest, rest', htag, htag', hquote, hrest⟩
  · have hdigit : text.head?.any Char.isDigit = text'.head?.any Char.isDigit := by
      rw [← fold_any_head fun _ => isDigit_toLower, h.fold_eq,
        fold_any_head fun _ => isDigit_toLower]
    rw [hnone, hnone', hdigit]
    dsimp only
    split_ifs
    · rw [← apart_fold, ← apart_fold, ← fold_dropWhile fun _ => isDigit_toLower, h.fold_eq,
        fold_dropWhile fun _ => isDigit_toLower, Token.fold,
        ← fold_takeWhile fun _ => isDigit_toLower, h.fold_eq,
        fold_takeWhile fun _ => isDigit_toLower]
      rfl
    · rw [Scan.fold, Scan.fold, h.fold_eq]
  · have hmark : pg.quote ∉ name ++ ['$'] := by
      rw [List.mem_append, not_or]
      exact ⟨hquote, by decide⟩
    have hfind := hrest.find_mark_fold hmark (show fold [] = fold [] from rfl)
    rw [htag, htag']
    dsimp only
    rw [List.cons_append]
    generalize find_mark ('$' :: (name ++ ['$'])) [] rest = found at hfind
    generalize find_mark ('$' :: (name ++ ['$'])) [] rest' = found' at hfind
    rcases found with _ | ⟨content, after⟩ <;> rcases found' with _ | ⟨content', after'⟩
    · rfl
    · cases hfind
    · cases hfind
    · obtain ⟨hcontent, hafter⟩ := Prod.mk.inj (Option.some.inj hfind)
      change fold content = fold content' at hcontent
      change fold after = fold after' at hafter
      dsimp only
      rw [Scan.fold, Scan.fold, hafter, Token.fold, Token.fold, hcontent]

theorem scan_fold {c' : Char} (h : Recased run (c :: text) (c' :: text')) :
    (scan c text).fold = (scan c' text').fold := by
  have hfold := h.fold_eq
  obtain ⟨hc, htext⟩ := List.cons.inj hfold
  by_cases hdollar : c = '$'
  · rw [hdollar] at h ⊢
    obtain ⟨text'', heq, _, hrest⟩ := h.of_mark (by decide) (by decide)
    obtain ⟨rfl, rfl⟩ := List.cons.inj heq
    exact hrest.dollar_fold
  · have hdollar' : c' ≠ '$' := by
      rw [Ne, ← toLower_eq_dollar, ← hc, toLower_eq_dollar]
      exact hdollar
    rw [← pg.scan_fold c text hdollar, ← pg.scan_fold c' text' hdollar', hc]
    exact congrArg (scan c'.toLower) htext

/-- What two scans leave, where they leave as much. -/
theorem after_scan {whole whole' rest' : List Char} (h : Recased run whole whole')
    (hcut : Cut whole rest) (hcut' : Cut whole' rest') (hrest : fold rest = fold rest') :
    ∃ run', Recased run' rest rest' := by
  have hlength := congrArg List.length hrest
  rw [fold_length, fold_length] at hlength
  exact h.suffix hcut.suffix hcut'.suffix hlength

/-- The two texts have the same tokens, but for the case of letters. -/
theorem lex_fold (h : Recased run text text') :
    (lex text).map Token.fold = (lex text').map Token.fold := by
  induction text using lex_induction generalizing run text' with
  | nil =>
    cases h
    rfl
  | skip c text rest hs ih =>
    obtain ⟨c', text', _, rfl, _⟩ := h.uncons
    have hfold := h.scan_fold
    have hcut : Cut (c :: text) rest := scan_cut (by rw [hs]; rfl)
    rw [hs] at hfold
    rcases hs' : scan c' text' with rest' | ⟨t', rest'⟩ | _ <;> rw [hs'] at hfold
    · obtain ⟨run', hrest⟩ := h.after_scan hcut (scan_cut (by rw [hs']; rfl))
        (Scan.skip.inj hfold)
      rw [lex_skip hs, lex_skip hs', ih hrest]
    · cases hfold
    · cases hfold
  | token c text t rest hs ih =>
    obtain ⟨c', text', _, rfl, _⟩ := h.uncons
    have hfold := h.scan_fold
    have hcut : Cut (c :: text) rest := scan_cut (by rw [hs]; rfl)
    rw [hs] at hfold
    rcases hs' : scan c' text' with rest' | ⟨t', rest'⟩ | _ <;> rw [hs'] at hfold
    · cases hfold
    · obtain ⟨ht, hafter⟩ := Scan.token.inj hfold
      obtain ⟨run', hrest⟩ := h.after_scan hcut (scan_cut (by rw [hs']; rfl)) hafter
      rw [lex_token hs, lex_token hs', List.map_cons, List.map_cons, ht, ih hrest]
    · cases hfold
  | error c text hs =>
    obtain ⟨c', text', _, rfl, _⟩ := h.uncons
    have hfold := h.scan_fold
    rw [hs] at hfold
    rcases hs' : scan c' text' with rest' | ⟨t', rest'⟩ | _ <;> rw [hs'] at hfold
    · cases hfold
    · cases hfold
    · rw [lex_error hs, lex_error hs']

end Recased

end pg
