-- The lines of an invoice. Both handlers look for the subscription on the first
-- line alone, so it is found in every order of the lines only where every line
-- names it; and the event of an invoice that names none always fails.
import SaasBackend.BillingSystem

open relational async

namespace saas

open Proc SubscriptionRepoistory StripeGateway SubscriptionService

/-! ## What an invoice names -/

/-- The subscription that a line names. What is missing or null on the way to it
names nothing. -/
def InvoiceLine.named (line : InvoiceLine) : Option StripeId :=
  match line.parent with
  | .val parent => parent.subscription_item_details.bind ItemDetails.subscription
  | _ => none

namespace Invoice

def all_lines (invoice : Invoice) : List InvoiceLine :=
  match invoice.lines with
  | .val lines => lines.data.getD []
  | _ => []

/-- The subscriptions that the lines name. -/
def named (invoice : Invoice) : List StripeId := invoice.all_lines.filterMap InvoiceLine.named

/-- The same payload, up to the order of the lines. -/
def Reorders (invoice' invoice : Invoice) : Prop :=
  invoice'.all_lines.Perm invoice.all_lines ∧ invoice' = { invoice with lines := invoice'.lines }

theorem mem_named {invoice : Invoice} {id : StripeId} :
    id ∈ invoice.named ↔ ∃ line ∈ invoice.all_lines, line.named = some id := by
  unfold named
  rw [List.mem_filterMap]

theorem line_items_of_ne {invoice : Invoice} (h : invoice.all_lines ≠ []) :
    invoice.line_items = .ok invoice.all_lines := by
  unfold all_lines line_items at *
  rcases hl : invoice.lines with _ | _ | lines
  · simp [hl] at h
  · simp [hl] at h
  · rfl

end Invoice

theorem InvoiceLine.id_of_named {line : InvoiceLine} {id : StripeId} (h : line.named = some id) :
    line.stripe_subscription_id = .ok (some id) := by
  unfold named stripe_subscription_id at *
  rcases hp : line.parent with _ | _ | parent
  · simp [hp] at h
  · simp [hp] at h
  · simp only [hp] at h
    simp only [h]

theorem InvoiceLine.id_of_unnamed {line : InvoiceLine} (h : line.named = none) :
    line.stripe_subscription_id = .ok none ∨
      line.stripe_subscription_id = .error .attributeError := by
  unfold named stripe_subscription_id at *
  rcases hp : line.parent with _ | _ | parent
  · exact Or.inl rfl
  · exact Or.inr rfl
  · simp only [hp] at h
    simp [h]

/-! ## The handlers, by the first line -/

/-- What a payment does for a subscription: it gets the period that Stripe has
now, or it is stored. -/
def renew (id : StripeId) : M (Option (Row Subscription)) := do
  let stripe_subscription ← Subscription_retrieve (some id)
  renew_or_create id stripe_subscription.val

/-- What a failed payment does for a subscription. -/
def mark_past_due (id : StripeId) : M (Option (Row Subscription)) :=
  update_sub_status .STRIPE (some id) .PAST_DUE

theorem renew.ne_none (id : StripeId) (w : World) : ((renew id).run w).1 ≠ .ok none := by
  intro hnone
  unfold renew at hnone
  rw [run_bind, Subscription_retrieve.spec] at hnone
  rcases hS : w.stripe.subscriptions.byId id with _ | S
  · simp [hS] at hnone
  · simp only [hS] at hnone
    rw [renew_or_create.spec] at hnone
    rcases hi : S.val.items with _ | ⟨item, items⟩
    · simp [hi] at hnone
    · rcases hr : w.row_of id with _ | r
      · simp only [hi, hr] at hnone
        split at hnone
        · cases hnone
        · cases hnone
        · split at hnone <;> cases hnone
      · simp [hi, hr] at hnone

theorem mark_past_due.ne_error (id : StripeId) (w : World) (e : Err) :
    ((mark_past_due id).run w).1 ≠ .error e := by
  intro herr
  unfold mark_past_due at herr
  rw [update_sub_status.spec] at herr
  rcases hr : w.row_of id with _ | r
  · simp [hr] at herr
  · simp only [hr] at herr
    split at herr <;> cases herr

namespace Invoice

variable {invoice : Invoice} {line : InvoiceLine} {lines : List InvoiceLine} {id : StripeId}

theorem handled_of_named (hl : invoice.all_lines = line :: lines) (hn : line.named = some id) :
    handle_invoice_payment_succeeded invoice = renew id ∧
      handle_invoice_payment_failed invoice = mark_past_due id := by
  have hitems : invoice.line_items = .ok (line :: lines) := by
    rw [← hl]
    exact line_items_of_ne (by simp [hl])
  have hid := InvoiceLine.id_of_named hn
  constructor
  · unfold handle_invoice_payment_succeeded
    rw [hitems]
    change (Proc.ofExcept line.stripe_subscription_id >>= _) = _
    rw [hid]
    rfl
  · unfold handle_invoice_payment_failed
    rw [hitems]
    change (Proc.ofExcept line.stripe_subscription_id >>= _) = _
    rw [hid]
    rfl

/-- The first line names none: the success handler finds nothing, or both fail on
the line. -/
theorem handled_of_unnamed (hl : invoice.all_lines = line :: lines) (hn : line.named = none) :
    handle_invoice_payment_succeeded invoice = .ret none ∨
      (handle_invoice_payment_succeeded invoice = .raise .attributeError ∧
        handle_invoice_payment_failed invoice = .raise .attributeError) := by
  have hitems : invoice.line_items = .ok (line :: lines) := by
    rw [← hl]
    exact line_items_of_ne (by simp [hl])
  unfold handle_invoice_payment_succeeded handle_invoice_payment_failed
  rw [hitems]
  change (Proc.ofExcept line.stripe_subscription_id >>= _) = _ ∨
    ((Proc.ofExcept line.stripe_subscription_id >>= _) = _ ∧
      (Proc.ofExcept line.stripe_subscription_id >>= _) = _)
  rcases InvoiceLine.id_of_unnamed hn with h | h
  · rw [h]
    exact Or.inl rfl
  · rw [h]
    exact Or.inr ⟨rfl, rfl⟩

theorem succeeded_of_nil (hl : invoice.all_lines = []) :
    handle_invoice_payment_succeeded invoice = .ret none ∨
      handle_invoice_payment_succeeded invoice = .raise .attributeError := by
  unfold handle_invoice_payment_succeeded line_items
  unfold all_lines at hl
  rcases hlines : invoice.lines with _ | _ | ls
  · exact Or.inl rfl
  · exact Or.inr rfl
  · simp only [hlines] at hl
    simp only [hl]
    exact Or.inl rfl

end Invoice

/-! ## The condition -/

namespace Invoice

/-- Both handlers act on `id`, in whatever order the lines come. -/
def ActsOn (invoice : Invoice) (w : World) (id : StripeId) : Prop :=
  ∀ invoice', Reorders invoice' invoice →
    (handle_invoice_payment_succeeded invoice').run w = (renew id).run w ∧
    (handle_invoice_payment_failed invoice').run w = (mark_past_due id).run w

/-- The event of the payment returns, and the database is as before. -/
def Ignored (invoice : Invoice) (stripe_webhook_secret : Nat) (w : World) : Prop :=
  ∃ result w', (stripe_webhook stripe_webhook_secret
      ⟨.invoice_payment_succeeded invoice, stripe_webhook_secret⟩).run w = (.ok result, w') ∧
    w'.db = w.db

/-- The subscription that an invoice names is found, and an invoice that names
none is ignored. -/
def Handled (invoice : Invoice) (stripe_webhook_secret : Nat) (w : World) : Prop :=
  (∀ id ∈ invoice.named, (∀ i ∈ invoice.named, i = id) → invoice.ActsOn w id) ∧
  (invoice.named = [] → invoice.Ignored stripe_webhook_secret w)

/-- Some line names a subscription; and every line names one, or two lines name
different ones. -/
def Plain (invoice : Invoice) : Prop :=
  invoice.named ≠ [] ∧ ((∀ line ∈ invoice.all_lines, line.named ≠ none) ∨
    ∃ i ∈ invoice.named, ∃ j ∈ invoice.named, i ≠ j)

variable {invoice : Invoice} {id : StripeId}

/-- No event of an invoice that names no subscription is ignored: the payment
that is recorded next asks for its user. -/
theorem not_ignored (h : invoice.named = []) (secret : Nat) (w : World) :
    ¬ invoice.Ignored secret w := by
  have hfound : handle_invoice_payment_succeeded invoice = .ret none ∨
      handle_invoice_payment_succeeded invoice = .raise .attributeError := by
    rcases hl : invoice.all_lines with _ | ⟨line, lines⟩
    · exact succeeded_of_nil hl
    · have hn : line.named = none := by
        unfold named at h
        rw [hl, List.filterMap_eq_nil_iff] at h
        exact h line (by simp)
      exact (handled_of_unnamed hl hn).imp_right And.left
  rintro ⟨result, w', hrun, _⟩
  unfold stripe_webhook handle_event at hrun
  rcases hfound with hf | hf
  · simp only [hf, ne_eq, not_true_eq_false, if_false] at hrun
    cases hrun
  · simp only [hf, ne_eq, not_true_eq_false, if_false] at hrun
    cases hrun

/-- Every line names `id`, whichever comes first. -/
theorem actsOn_of_all (w : World) (hid : id ∈ invoice.named) (honly : ∀ i ∈ invoice.named, i = id)
    (hall : ∀ line ∈ invoice.all_lines, line.named ≠ none) : invoice.ActsOn w id := by
  rintro invoice' ⟨hperm, _⟩
  obtain ⟨line₀, hline₀, _⟩ := mem_named.mp hid
  rcases hl : invoice'.all_lines with _ | ⟨line, lines⟩
  · rw [hl] at hperm
    have hnil := hperm.symm.eq_nil
    simp [hnil] at hline₀
  · have hmem : line ∈ invoice.all_lines := hperm.subset (by simp [hl])
    obtain ⟨i, hi⟩ := Option.ne_none_iff_exists'.mp (hall line hmem)
    have hsame : i = id := honly i (mem_named.mpr ⟨line, hmem, hi⟩)
    subst hsame
    obtain ⟨hs, hf⟩ := handled_of_named hl hi
    rw [hs, hf]
    exact ⟨rfl, rfl⟩

/-- A line that names nothing, put first, hides the subscription. -/
theorem not_actsOn_of_unnamed {line : InvoiceLine} (w : World) (hmem : line ∈ invoice.all_lines)
    (hn : line.named = none) : ¬ invoice.ActsOn w id := by
  intro hacts
  obtain ⟨before, after, hsplit⟩ := List.append_of_mem hmem
  let invoice' : Invoice := { invoice with lines := .val ⟨some (line :: (before ++ after))⟩ }
  have hl : invoice'.all_lines = line :: (before ++ after) := rfl
  have hperm : invoice'.all_lines.Perm invoice.all_lines := by
    rw [hl, hsplit]
    exact List.perm_middle.symm
  obtain ⟨hs, hf⟩ := hacts invoice' ⟨hperm, rfl⟩
  rcases handled_of_unnamed hl hn with h | ⟨_, h⟩
  · rw [h] at hs
    exact renew.ne_none id w (congrArg Prod.fst hs).symm
  · rw [h] at hf
    exact mark_past_due.ne_error id w _ (congrArg Prod.fst hf).symm

end Invoice

/-- An invoice is handled as it should be exactly when some line names a
subscription, and every line does or two of them disagree. -/
theorem invoice_lines_handled_iff (invoice : Invoice) (stripe_webhook_secret : Nat) (w : World) :
    invoice.Handled stripe_webhook_secret w ↔ invoice.Plain := by
  constructor
  · rintro ⟨hacts, hignored⟩
    have hne : invoice.named ≠ [] := fun h => Invoice.not_ignored h _ w (hignored h)
    refine ⟨hne, ?_⟩
    by_contra hcon
    rw [not_or] at hcon
    obtain ⟨hsome, hagree⟩ := hcon
    push Not at hsome hagree
    obtain ⟨line, hline, hn⟩ := hsome
    obtain ⟨id, hid⟩ := List.exists_mem_of_ne_nil _ hne
    have hact := hacts id hid fun i hi => hagree i hi id hid
    exact Invoice.not_actsOn_of_unnamed w hline hn hact
  · rintro ⟨hne, hplain⟩
    refine ⟨fun id hid honly => ?_, fun h => absurd h hne⟩
    rcases hplain with hall | ⟨i, hi, j, hj, hij⟩
    · exact Invoice.actsOn_of_all w hid honly hall
    · exact absurd ((honly i hi).trans (honly j hj).symm) hij

namespace Sample

/-- A line of a subscription, and one without. -/
def subscription_line (id : StripeId) : InvoiceLine := ⟨.val ⟨some ⟨some id⟩⟩⟩

def item_line : InvoiceLine := ⟨.val ⟨none⟩⟩

def invoice_of (lines : List InvoiceLine) : Invoice where
  id := 0
  billing_reason := .subscription_cycle
  amount_paid := 1500
  currency := some "eur"
  lines := .val ⟨some lines⟩

end Sample

open Sample in
/-- A one-off item on the first line hides the subscription on the second, and
an invoice of one-off items makes the webhook fail. -/
theorem invoice_lines_are_not_handled :
    ¬ (invoice_of [item_line, subscription_line 0]).Handled 3 begun ∧
    ¬ (invoice_of [item_line]).Handled 3 begun := by
  constructor
  · rintro ⟨hacts, _⟩
    have hact := hacts 0 (by decide) (by decide)
    obtain ⟨hs, _⟩ := hact _ ⟨List.Perm.refl _, rfl⟩
    exact absurd (congrArg Prod.fst hs) (by decide)
  · rintro ⟨_, hignored⟩
    obtain ⟨result, w', hrun, _⟩ := hignored rfl
    have herr : ((stripe_webhook 3
        ⟨.invoice_payment_succeeded (invoice_of [item_line]), 3⟩).run begun).1 =
        .error .attributeError := by decide
    rw [hrun] at herr
    cases herr

end saas
