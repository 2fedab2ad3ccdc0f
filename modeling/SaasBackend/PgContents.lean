-- Which characters of a text stand in the content of a literal, and where in it. The
-- quotes around a content, a break in it, and the first of two quotes are not in it.
import SaasBackend.PgPieces

namespace pg

/-- A character, and its place if it stands in a literal: the content of the literal,
and how many characters of the content come before this one. -/
abbrev Placed := Char × Option (List Char × Nat)

def unplaced (part : List Char) : List Placed := part.map fun c => (c, none)

/-- The characters of a string after `k` characters of its content. What follows the
string is left out of account. -/
def place_string (escapes : Bool) (content : List Char) : At → Nat → List Char → List Placed
  | _, _, [] => []
  | .inside, k, c :: text =>
    if c = quote then (c, none) :: place_string escapes content .closed k text
    else if escapes && c = backslash then
      (c, some (content, k)) :: place_string escapes content .escaped (k + 1) text
    else (c, some (content, k)) :: place_string escapes content .inside (k + 1) text
  | .escaped, k, c :: text =>
    (c, some (content, k)) :: place_string escapes content .inside (k + 1) text
  | .closed, k, c :: text =>
    if c = quote then (c, some (content, k)) :: place_string escapes content .inside (k + 1) text
    else match behind (c :: text) false c with
      | some m => (c, none) :: place_string escapes content m k text
      | none => unplaced (c :: text)
  | .gap rest line, k, c :: text =>
    if c = quote then
      if line then (c, none) :: place_string escapes content .inside k text
      else unplaced (c :: text)
    else match behind rest line c with
      | some m => (c, none) :: place_string escapes content m k text
      | none => unplaced (c :: text)
  | .dash rest line, k, c :: text =>
    if c = '-' then (c, none) :: place_string escapes content (.comment rest line) k text
    else unplaced (c :: text)
  | .comment rest line, k, c :: text =>
    if newline c then (c, none) :: place_string escapes content (.gap rest true) k text
    else (c, none) :: place_string escapes content (.comment rest line) k text

/-- The literals that start with an `E` have backslash escapes. -/
def escape_opening (opening : List Char) : Bool := opening.head?.any (· ∈ ['e', 'E'])

/-- The characters of a literal, from its opening up to `rest`. -/
def place_literal (opening content text rest : List Char) : List Placed :=
  let inner := text.drop opening.length
  let places :=
    if opening.head? = some '$' then
      content.zipIdx.map (fun place => (place.1, some (content, place.2))) ++ unplaced opening
    else place_string (escape_opening opening) content .inside 0 inner
  unplaced opening ++ places.take (inner.length - rest.length)

/-- The characters of one scan. -/
def place_scan (text rest : List Char) : Token → List Placed
  | .literal opening content => place_literal opening content text rest
  | _ => unplaced (used text rest)

def place_steps : Nat → List Char → List Placed
  | n + 1, c :: text => match scan c text with
    | .skip rest => unplaced (used (c :: text) rest) ++ place_steps n rest
    | .token token rest => place_scan (c :: text) rest token ++ place_steps n rest
    | .error => unplaced (c :: text)
  | _, text => unplaced text

/-- The characters of a text with their places. -/
def places (text : List Char) : List Placed := place_steps text.length text

section

variable {c : Char} {text rest content content' opening : List Char} {m : At} {escapes : Bool}
  {k n : Nat}

theorem unplaced_chars (part : List Char) : (unplaced part).map Prod.fst = part := by
  rw [unplaced, List.map_map]
  exact List.map_id' part

theorem not_mem_unplaced {place : List Char × Nat} : (c, some place) ∉ unplaced text := by
  intro h
  obtain ⟨d, _, heq⟩ := List.mem_map.mp h
  cases heq

/-! ## Literals -/

/-- What is behind a literal: its content between two marks, or a string. -/
inductive AtLiteral (opening content rest : List Char) : List Char → Prop
  | dollar (hopening : opening.head? = some '$') :
    AtLiteral opening content rest (opening ++ (content ++ (opening ++ rest)))
  | string (inner : List Char) (hopening : opening.head? ≠ some '$')
    (hend : string_end (escape_opening opening) .inside [] inner = some (content, rest)) :
    AtLiteral opening content rest (opening ++ inner)

theorem find_mark_text {mark : List Char}
    (h : find_mark mark content text = some (content', rest)) :
    ∃ after, content' = content ++ after ∧ text = after ++ (mark ++ rest) := by
  fun_induction find_mark mark content text with
  | case1 => cases h
  | case2 content c text hstarts =>
    cases h
    obtain ⟨after, hafter⟩ := List.isPrefixOf_iff_prefix.mp hstarts
    refine ⟨[], (List.append_nil _).symm, ?_⟩
    rw [← hafter, List.drop_left]
    rfl
  | case3 content c text hstarts ih =>
    obtain ⟨after, rfl, rfl⟩ := ih h
    exact ⟨c :: after, by rw [List.append_assoc]; rfl, rfl⟩

theorem tag_text {name : List Char} (h : tag text = some (name, rest)) :
    text = name ++ '$' :: rest := by
  unfold tag at h
  split at h
  · rename_i after hafter
    dsimp only at h
    split at h
    · cases h
      rw [← hafter, List.takeWhile_append_dropWhile]
    · cases h
  · cases h

theorem dollar_literal (h : dollar text = .token (.literal opening content) rest) :
    AtLiteral opening content rest ('$' :: text) := by
  unfold dollar at h
  split at h
  · rename_i name after htag
    dsimp only at h
    split at h
    · rename_i content' rest' hfind
      cases h
      obtain ⟨after, hcontent, rfl⟩ := find_mark_text hfind
      rw [List.nil_append] at hcontent
      have hopening : ('$' :: name ++ ['$']).head? = some '$' := rfl
      have htext : '$' :: text = ('$' :: name ++ ['$']) ++
          (content ++ (('$' :: name ++ ['$']) ++ rest)) := by
        rw [tag_text htag, hcontent]
        simp
      exact htext ▸ .dollar hopening
    · cases h
  · split at h
    · obtain ⟨heq, _⟩ := apart_text h
      cases heq
    · cases h

theorem string_literal (before : List Char) (hescapes : escape_opening before = escapes)
    (hbefore : before.head? ≠ some '$')
    (h : string escapes before text = .token (.literal opening content) rest) :
    AtLiteral opening content rest (before ++ text) := by
  unfold string at h
  split at h
  · rename_i hend
    cases h
    rw [← hescapes] at hend
    exact .string text hbefore hend
  · cases h

theorem quoted_not_literal {before : List Char} :
    quoted_ident before text ≠ .token (.literal opening content) rest := by
  intro h
  unfold quoted_ident at h
  split at h
  · cases h
  · cases h

theorem word_literal (h : word c text = .token (.literal opening content) rest) :
    AtLiteral opening content rest (c :: text) := by
  have hletters : (opening_letters.all fun c => decide (c ≠ '$')) = true := by decide
  have hdollar : ∀ d ∈ opening_letters, (d :: text).head? ≠ some '$' := fun d hd heq =>
    of_decide_eq_true (List.all_eq_true.mp hletters d hd) (Option.some.inj heq)
  unfold pg.word at h
  dsimp only at h
  split at h
  · rename_i d e after
    split at h
    · rename_i hc
      have hplain : ("bBxXnN".toList.all fun c => decide (c ∉ ['e', 'E'])) = true := by decide
      refine string_literal [c, d] ?_ ?_ h
      · simpa [escape_opening] using List.all_eq_true.mp hplain c hc.1
      · exact hdollar c (List.mem_append_left _ hc.1)
    split at h
    · rename_i hc
      refine string_literal [c, d] ?_ ?_ h
      · exact decide_eq_true hc.1
      · exact hdollar c (List.mem_append_right _ (List.mem_append_left _ hc.1))
    split at h
    · rename_i hc
      have hunicode : (['u', 'U'].all fun c => decide (c ∉ ['e', 'E'])) = true := by decide
      refine string_literal [c, d, e] ?_ ?_ h
      · simpa [escape_opening] using List.all_eq_true.mp hunicode c hc.1
      · exact hdollar c (List.mem_append_right _ (List.mem_append_right _ hc.1))
    split at h
    · exact absurd h quoted_not_literal
    · cases h
  · split at h
    · cases h
    · cases h
  · cases h

/-- A literal is one of the two kinds. -/
theorem scan_literal (h : scan c text = .token (.literal opening content) rest) :
    AtLiteral opening content rest (c :: text) := by
  have hquote : quote ≠ '$' := by decide
  unfold pg.scan at h
  split at h
  · cases h
  split at h
  · cases h
  split at h
  · split at h
    · cases h
    · cases h
  split at h
  · rename_i hc
    refine string_literal [c] ?_ ?_ h
    · rw [hc]
      decide
    · rw [hc]
      exact fun heq => hquote (Option.some.inj heq)
  split at h
  · exact absurd h quoted_not_literal
  split at h
  · rename_i hc
    exact hc ▸ dollar_literal h
  split at h
  · exact word_literal h
  split at h
  · obtain ⟨heq, _⟩ := apart_text h
    cases heq
  split at h
  · cases h
  · cases h

/-! ## The characters are those of the text -/

theorem place_string_chars : (place_string escapes content m k text).map Prod.fst = text := by
  induction text generalizing m k with
  | nil => cases m <;> rfl
  | cons c text ih =>
    have hnext : ∀ {place m' k'},
        ((c, place) :: place_string escapes content m' k' text).map Prod.fst = c :: text :=
      fun {_ _ _} => congrArg (c :: ·) ih
    unfold place_string
    cases m with
    | inside =>
      dsimp only
      split
      · exact hnext
      split
      · exact hnext
      · exact hnext
    | escaped => exact hnext
    | closed =>
      dsimp only
      split
      · exact hnext
      split
      · exact hnext
      · exact unplaced_chars _
    | gap after line =>
      dsimp only
      split
      · split
        · exact hnext
        · exact unplaced_chars _
      split
      · exact hnext
      · exact unplaced_chars _
    | dash after line =>
      dsimp only
      split
      · exact hnext
      · exact unplaced_chars _
    | comment after line =>
      dsimp only
      split
      · exact hnext
      · exact hnext

theorem AtLiteral.suffix (h : AtLiteral opening content rest text) :
    ∃ inner, text = opening ++ inner ∧ rest <:+ inner := by
  cases h with
  | dollar =>
    exact ⟨_, rfl, (List.suffix_append opening rest).trans (List.suffix_append content _)⟩
  | string inner _ hend =>
    have hquote := string_end_some hend (List.suffix_refl _) fun _ ha => by cases ha
    exact ⟨inner, rfl, (List.suffix_cons quote rest).trans hquote⟩

theorem AtLiteral.chars (h : AtLiteral opening content rest text) :
    (place_literal opening content text rest).map Prod.fst ++ rest = text := by
  obtain ⟨inner, htext, hsuffix⟩ := h.suffix
  have hused : inner.take (inner.length - rest.length) ++ rest = inner := used_self hsuffix
  have hdrop : text.drop opening.length = inner := by rw [htext, List.drop_left]
  unfold place_literal
  simp only [hdrop]
  rw [List.map_append, unplaced_chars, List.append_assoc, List.map_take]
  cases h with
  | dollar hopening =>
    obtain rfl := List.append_cancel_left htext
    have hplaces : (content.zipIdx.map (fun place => (place.1, some (content, place.2))) ++
        unplaced opening).map Prod.fst = content ++ opening := by
      rw [List.map_append, unplaced_chars, List.map_map]
      exact congrArg (· ++ opening) (List.zipIdx_map_fst 0 content)
    have hlength : (content ++ (opening ++ rest)).length - rest.length =
        (content ++ opening).length := by
      simp only [List.length_append]
      omega
    rw [if_pos hopening, hplaces, hlength, List.take_length, List.append_assoc]
  | string inner' hopening _ =>
    rw [if_neg hopening, place_string_chars, hused, htext]

theorem place_scan_chars {token : Token} (h : scan c text = .token token rest) :
    (place_scan (c :: text) rest token).map Prod.fst ++ rest = c :: text := by
  unfold place_scan
  split
  · exact (scan_literal h).chars
  · rw [unplaced_chars]
    exact used_self (scan_cut (by rw [h]; rfl)).suffix

theorem place_steps_eq (hn : text.length ≤ n) (hk : text.length ≤ k) :
    place_steps n text = place_steps k text := by
  induction n generalizing k text with
  | zero =>
    rw [List.length_eq_zero_iff.mp (Nat.le_zero.mp hn)]
    cases k <;> rfl
  | succ n ih =>
    cases text with
    | nil => cases k <;> rfl
    | cons c text =>
      cases k with
      | zero => cases hk
      | succ k =>
        have hrest : ∀ {rest}, (scan c text).rest = some rest →
            place_steps n rest = place_steps k rest := fun h => by
          have hlt := (scan_cut h).length_lt
          exact ih (by omega) (by omega)
        rw [place_steps, place_steps]
        rcases hs : scan c text with rest | ⟨token, rest⟩ | _
        · exact congrArg (_ ++ ·) (hrest (by rw [hs]; rfl))
        · exact congrArg (_ ++ ·) (hrest (by rw [hs]; rfl))
        · rfl

/-- The places of a text: those of the first scan, and those of the rest. -/
theorem places_cons (c : Char) (text : List Char) :
    places (c :: text) = match scan c text with
      | .skip rest => unplaced (used (c :: text) rest) ++ places rest
      | .token token rest => place_scan (c :: text) rest token ++ places rest
      | .error => unplaced (c :: text) := by
  have hrest : ∀ {rest}, (scan c text).rest = some rest →
      place_steps text.length rest = places rest := fun h => by
    have hlt := (scan_cut h).length_lt
    rw [List.length_cons] at hlt
    exact place_steps_eq (by omega) (Nat.le_refl _)
  unfold places
  rw [List.length_cons, place_steps]
  rcases hs : scan c text with rest | ⟨token, rest⟩ | _
  · exact congrArg (_ ++ ·) (hrest (by rw [hs]; rfl))
  · exact congrArg (_ ++ ·) (hrest (by rw [hs]; rfl))
  · rfl

theorem places_chars (text : List Char) : (places text).map Prod.fst = text := by
  induction text using lex_induction with
  | nil => rfl
  | skip c text rest hs ih =>
    rw [places_cons, hs, List.map_append, unplaced_chars, ih]
    exact used_self (scan_cut (by rw [hs]; rfl)).suffix
  | token c text token rest hs ih =>
    rw [places_cons, hs, List.map_append, ih]
    exact place_scan_chars hs
  | error c text hs =>
    rw [places_cons, hs]
    exact unplaced_chars _

/-! ## The characters are those of the contents -/

/-- A character is where its place says it is. -/
def InPlace (placed : List Placed) : Prop :=
  ∀ c content k, (c, some (content, k)) ∈ placed → content[k]? = some c

theorem InPlace.append {before after : List Placed} (hbefore : InPlace before)
    (hafter : InPlace after) : InPlace (before ++ after) := by
  intro c content k hmem
  rcases List.mem_append.mp hmem with hmem | hmem
  · exact hbefore c content k hmem
  · exact hafter c content k hmem

theorem unplaced_in_place (part : List Char) : InPlace (unplaced part) :=
  fun _ _ _ hmem => absurd hmem not_mem_unplaced

theorem InPlace.gap {placed : List Placed} (h : InPlace placed) : InPlace ((c, none) :: placed) :=
  InPlace.append (unplaced_in_place [c]) h

/-- One more character of the content. -/
theorem InPlace.next {placed : List Placed} (h : InPlace placed)
    (hcontent : content ++ [c] <+: content') :
    InPlace ((c, some (content', content.length)) :: placed) := by
  intro d content'' k hmem
  rcases List.mem_cons.mp hmem with heq | hmem
  · cases heq
    obtain ⟨after, rfl⟩ := hcontent
    rw [List.append_assoc, List.getElem?_append_right (Nat.le_refl _), Nat.sub_self]
    rfl
  · exact h d content'' k hmem

/-- How a string is read on with one more character: it is content, or it stands
between two parts of the string, or the string has ended before it. -/
inductive ReadsOn (escapes : Bool) (content content' rest : List Char) (m : At) (c : Char)
    (text : List Char) : Prop where
  | keeps (m' : At) (hend : string_end escapes m' (content ++ [c]) text = some (content', rest))
      (hplaces : place_string escapes content' m content.length (c :: text) =
        (c, some (content', content.length)) ::
          place_string escapes content' m' (content.length + 1) text)
  | passes (m' : At) (hend : string_end escapes m' content text = some (content', rest))
      (hplaces : place_string escapes content' m content.length (c :: text) =
        (c, none) :: place_string escapes content' m' content.length text)
  | ends (hcontent : content = content')
      (hplaces : place_string escapes content' m content.length (c :: text) = unplaced (c :: text))

namespace ReadsOn

theorem inside (h : string_end escapes .inside content (c :: text) = some (content', rest)) :
    ReadsOn escapes content content' rest .inside c text := by
  rw [string_end] at h
  split at h
  · rename_i hc
    exact .passes .closed h (by rw [place_string, if_pos hc])
  split at h
  · rename_i hc hescape
    exact .keeps .escaped h (by rw [place_string, if_neg hc, if_pos hescape])
  · rename_i hc hescape
    exact .keeps .inside h (by rw [place_string, if_neg hc, if_neg hescape])

theorem escaped (h : string_end escapes .escaped content (c :: text) = some (content', rest)) :
    ReadsOn escapes content content' rest .escaped c text :=
  .keeps .inside h rfl

/-- Behind the closing quote, where no other quote is. -/
theorem behind {after : List Char} {line : Bool}
    (h : (match pg.behind after line c with
      | some m' => string_end escapes m' content text
      | none => some (content, after)) = some (content', rest))
    (hplaces : place_string escapes content' m content.length (c :: text) =
      match pg.behind after line c with
      | some m' => (c, none) :: place_string escapes content' m' content.length text
      | none => unplaced (c :: text)) :
    ReadsOn escapes content content' rest m c text := by
  rcases hbehind : pg.behind after line c with _ | m'
  · simp only [hbehind] at h hplaces
    cases h
    exact .ends rfl hplaces
  · simp only [hbehind] at h hplaces
    exact .passes m' h hplaces

theorem closed (h : string_end escapes .closed content (c :: text) = some (content', rest)) :
    ReadsOn escapes content content' rest .closed c text := by
  rw [string_end] at h
  split at h
  · rename_i hc
    exact .keeps .inside h (by rw [place_string, if_pos hc])
  · rename_i hc
    exact .behind h (by rw [place_string, if_neg hc])

theorem gap {after : List Char} {line : Bool}
    (h : string_end escapes (.gap after line) content (c :: text) = some (content', rest)) :
    ReadsOn escapes content content' rest (.gap after line) c text := by
  rw [string_end] at h
  split at h
  · rename_i hc
    split at h
    · rename_i hline
      exact .passes .inside h (by rw [place_string, if_pos hc, if_pos hline])
    · rename_i hline
      cases h
      exact .ends rfl (by rw [place_string, if_pos hc, if_neg hline])
  · rename_i hc
    exact .behind h (by rw [place_string, if_neg hc])

theorem dash {after : List Char} {line : Bool}
    (h : string_end escapes (.dash after line) content (c :: text) = some (content', rest)) :
    ReadsOn escapes content content' rest (.dash after line) c text := by
  rw [string_end] at h
  split at h
  · rename_i hc
    exact .passes (.comment after line) h (by rw [place_string, if_pos hc])
  · rename_i hc
    cases h
    exact .ends rfl (by rw [place_string, if_neg hc])

theorem comment {after : List Char} {line : Bool}
    (h : string_end escapes (.comment after line) content (c :: text) = some (content', rest)) :
    ReadsOn escapes content content' rest (.comment after line) c text := by
  rw [string_end] at h
  split at h
  · rename_i hc
    exact .passes (.gap after true) h (by rw [place_string, if_pos hc])
  · rename_i hc
    exact .passes (.comment after line) h (by rw [place_string, if_neg hc])

end ReadsOn

theorem reads_on (h : string_end escapes m content (c :: text) = some (content', rest)) :
    ReadsOn escapes content content' rest m c text := by
  cases m with
  | inside => exact .inside h
  | escaped => exact .escaped h
  | closed => exact .closed h
  | gap => exact .gap h
  | dash => exact .dash h
  | comment => exact .comment h

/-- At the end of the text nothing is added to the content. -/
theorem string_end_nil (h : string_end escapes m content [] = some (content', rest)) :
    content = content' := by
  cases m <;> cases h <;> rfl

/-- The content of a string is read from the left. -/
theorem string_in_place (h : string_end escapes m content text = some (content', rest)) :
    content <+: content' ∧ InPlace (place_string escapes content' m content.length text) := by
  induction text generalizing m content with
  | nil =>
    rw [string_end_nil h, place_string]
    exact ⟨List.prefix_refl _, unplaced_in_place []⟩
  | cons c text ih =>
    cases reads_on h with
    | keeps m' hend hplaces =>
      obtain ⟨hcontent, hin⟩ := ih hend
      rw [List.length_append, List.length_singleton] at hin
      rw [hplaces]
      exact ⟨(List.prefix_append content [c]).trans hcontent, hin.next hcontent⟩
    | passes m' hend hplaces =>
      obtain ⟨hcontent, hin⟩ := ih hend
      rw [hplaces]
      exact ⟨hcontent, hin.gap⟩
    | ends hcontent hplaces =>
      rw [hplaces]
      exact ⟨hcontent ▸ List.prefix_refl _, unplaced_in_place _⟩

theorem AtLiteral.in_place (h : AtLiteral opening content rest text) :
    InPlace (place_literal opening content text rest) := by
  obtain ⟨inner, htext, _⟩ := h.suffix
  have hdrop : text.drop opening.length = inner := by rw [htext, List.drop_left]
  have htake : ∀ {placed n}, InPlace placed → InPlace (placed.take n) := fun h d content k hmem =>
    h d content k (List.mem_of_mem_take hmem)
  unfold place_literal
  simp only [hdrop]
  refine (unplaced_in_place _).append (htake ?_)
  cases h with
  | dollar hopening =>
    rw [if_pos hopening]
    refine InPlace.append ?_ (unplaced_in_place _)
    intro c content' k hmem
    obtain ⟨⟨d, i⟩, hplace, heq⟩ := List.mem_map.mp hmem
    cases heq
    exact List.mem_zipIdx_iff_getElem?.mp hplace
  | string inner' hopening hend =>
    obtain rfl := List.append_cancel_left htext
    rw [if_neg hopening]
    exact (string_in_place hend).2

/-- The `k`-th character of a content stands at its `k`-th place. -/
theorem places_in_place (text : List Char) : InPlace (places text) := by
  induction text using lex_induction with
  | nil => exact unplaced_in_place []
  | skip c text rest hs ih =>
    rw [places_cons, hs]
    exact (unplaced_in_place _).append ih
  | token c text token rest hs ih =>
    rw [places_cons, hs]
    refine InPlace.append ?_ ih
    unfold place_scan
    split
    · exact (scan_literal hs).in_place
    · exact unplaced_in_place _
  | error c text hs =>
    rw [places_cons, hs]
    exact unplaced_in_place _

end

end pg
