-- Values that nest in arrays and objects, over any scalars, and a translation of the
-- scalars that may fail.
import Mathlib.Data.List.Basic

namespace nested

inductive Value (α : Type) where
  | scalar (a : α)
  | array (values : List (Value α))
  | object (fields : List (String × Value α))

namespace Value

variable {α β ε : Type}

/-! ## Equality -/

mutual

def decEq [DecidableEq α] : (v w : Value α) → Decidable (v = w)
  | .scalar a, .scalar b => decidable_of_iff (a = b) ⟨congrArg _, Value.scalar.inj⟩
  | .array vs, .array ws =>
    match decEq_values vs ws with
    | isTrue h => isTrue (congrArg _ h)
    | isFalse h => isFalse fun e => h (Value.array.inj e)
  | .object fs, .object gs =>
    match decEq_fields fs gs with
    | isTrue h => isTrue (congrArg _ h)
    | isFalse h => isFalse fun e => h (Value.object.inj e)
  | .scalar _, .array _ => isFalse (by simp)
  | .scalar _, .object _ => isFalse (by simp)
  | .array _, .scalar _ => isFalse (by simp)
  | .array _, .object _ => isFalse (by simp)
  | .object _, .scalar _ => isFalse (by simp)
  | .object _, .array _ => isFalse (by simp)

def decEq_values [DecidableEq α] : (vs ws : List (Value α)) → Decidable (vs = ws)
  | [], [] => isTrue rfl
  | [], _ :: _ => isFalse (by simp)
  | _ :: _, [] => isFalse (by simp)
  | v :: vs, w :: ws =>
    match decEq v w, decEq_values vs ws with
    | isTrue h, isTrue h' => isTrue (by rw [h, h'])
    | isFalse h, _ => isFalse fun e => h (List.cons.inj e).1
    | _, isFalse h => isFalse fun e => h (List.cons.inj e).2

def decEq_fields [DecidableEq α] : (fs gs : List (String × Value α)) → Decidable (fs = gs)
  | [], [] => isTrue rfl
  | [], _ :: _ => isFalse (by simp)
  | _ :: _, [] => isFalse (by simp)
  | (k, v) :: fs, (l, w) :: gs =>
    match decEq v w, decEq_fields fs gs with
    | isTrue h, isTrue h' => decidable_of_iff (k = l) (by rw [h, h']; simp)
    | isFalse h, _ => isFalse fun e => h (Prod.mk.inj (List.cons.inj e).1).2
    | _, isFalse h => isFalse fun e => h (List.cons.inj e).2

end

instance decidableEq [DecidableEq α] : DecidableEq (Value α) := decEq

/-! ## Scalars -/

mutual

/-- The scalars of a value, at any depth. -/
def scalars : Value α → List α
  | .scalar a => [a]
  | .array vs => scalars_values vs
  | .object fs => scalars_fields fs

def scalars_values : List (Value α) → List α
  | [] => []
  | v :: vs => scalars v ++ scalars_values vs

def scalars_fields : List (String × Value α) → List α
  | [] => []
  | (_, v) :: fs => scalars v ++ scalars_fields fs

end

mutual

/-- The value with its scalars translated. The first one that fails is the error. -/
def translate (f : α → Except ε β) : Value α → Except ε (Value β)
  | .scalar a => (f a).map .scalar
  | .array vs => (translate_values f vs).map .array
  | .object fs => (translate_fields f fs).map .object

def translate_values (f : α → Except ε β) : List (Value α) → Except ε (List (Value β))
  | [] => .ok []
  | v :: vs => do
    let w ← translate f v
    let ws ← translate_values f vs
    pure (w :: ws)

def translate_fields (f : α → Except ε β) :
    List (String × Value α) → Except ε (List (String × Value β))
  | [] => .ok []
  | (k, v) :: fs => do
    let w ← translate f v
    let gs ← translate_fields f fs
    pure ((k, w) :: gs)

end

/-- What holds of scalars, and of arrays and objects when it holds of all in them,
holds of every value. -/
theorem induction {P : Value α → Prop} (scalar : ∀ a, P (.scalar a))
    (array : ∀ vs, (∀ v ∈ vs, P v) → P (.array vs))
    (object : ∀ fs, (∀ f ∈ fs, P f.2) → P (.object fs)) (v : Value α) : P v :=
  @Value.rec α P (fun vs => ∀ v ∈ vs, P v) (fun fs => ∀ f ∈ fs, P f.2) (fun f => P f.2)
    scalar array object
    (fun _ hv => absurd hv List.not_mem_nil)
    (fun _ _ hv hvs => List.forall_mem_cons.mpr ⟨hv, hvs⟩)
    (fun _ hf => absurd hf List.not_mem_nil)
    (fun _ _ hf hfs => List.forall_mem_cons.mpr ⟨hf, hfs⟩)
    (fun _ _ hv => hv) v

theorem mem_scalars_values {a : α} {vs : List (Value α)} :
    a ∈ scalars_values vs ↔ ∃ v ∈ vs, a ∈ v.scalars := by
  induction vs with
  | nil => simp [scalars_values]
  | cons v vs ih => simp [scalars_values, ih]

theorem mem_scalars_fields {a : α} {fs : List (String × Value α)} :
    a ∈ scalars_fields fs ↔ ∃ f ∈ fs, a ∈ f.2.scalars := by
  induction fs with
  | nil => simp [scalars_fields]
  | cons f fs ih => simp [scalars_fields, ih]

section

variable {f : α → Except ε β}

/-- The translation does well. -/
def Translates (f : α → Except ε β) (v : Value α) : Prop := ∃ w, v.translate f = .ok w

theorem map_ok_iff {γ : Type} {x : Except ε β} {g : β → γ} :
    (∃ c, x.map g = .ok c) ↔ ∃ b, x = .ok b := by
  cases x <;> simp [Except.map]

theorem bind_ok_iff {γ δ : Type} {x : Except ε β} {y : Except ε γ} {g : β → γ → δ} :
    (∃ d, (do let b ← x; let c ← y; pure (g b c)) = (.ok d : Except ε δ)) ↔
      (∃ b, x = .ok b) ∧ ∃ c, y = .ok c := by
  cases x <;> cases y <;> simp [bind, Except.bind, pure, Except.pure]

theorem translate_values_ok {vs : List (Value α)} :
    (∃ ws, translate_values f vs = .ok ws) ↔ ∀ v ∈ vs, v.Translates f := by
  induction vs with
  | nil => simp [translate_values]
  | cons v vs ih => rw [translate_values, bind_ok_iff, ih, List.forall_mem_cons, Translates]

theorem translate_fields_ok {fs : List (String × Value α)} :
    (∃ gs, translate_fields f fs = .ok gs) ↔ ∀ field ∈ fs, field.2.Translates f := by
  induction fs with
  | nil => simp [translate_fields]
  | cons field fs ih =>
    rw [translate_fields, bind_ok_iff, ih, List.forall_mem_cons, Translates]

/-- A value is translated exactly when each of its scalars is. -/
theorem translates_iff {v : Value α} :
    v.Translates f ↔ ∀ a ∈ v.scalars, ∃ b, f a = .ok b := by
  induction v using induction with
  | scalar a => simp [Translates, translate, scalars, map_ok_iff]
  | array vs ih =>
    rw [Translates, translate, map_ok_iff, translate_values_ok, scalars]
    simp only [mem_scalars_values]
    constructor
    · rintro h a ⟨v, hv, ha⟩
      exact (ih v hv).mp (h v hv) a ha
    · intro h v hv
      exact (ih v hv).mpr fun a ha => h a ⟨v, hv, ha⟩
  | object fs ih =>
    rw [Translates, translate, map_ok_iff, translate_fields_ok, scalars]
    simp only [mem_scalars_fields]
    constructor
    · rintro h a ⟨field, hfield, ha⟩
      exact (ih field hfield).mp (h field hfield) a ha
    · intro h field hfield
      exact (ih field hfield).mpr fun a ha => h a ⟨field, hfield, ha⟩

end

end Value

end nested
