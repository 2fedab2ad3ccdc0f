-- Who changes the status of a subscription, whatever is in flight. The life of a row
-- goes by five kinds of changes, and each was made by an act of a request that stands
-- for it. Rows stay, and nobody changes whose they are.
import SaasBackend.TrafficLaws

open relational async

namespace saas

/-! ## The changes -/

/-- The status of a row, if there is one. -/
def World.status_of (w : World) (i : UUID) : Option SubscriptionStatus :=
  (w.db.subscriptions.byId i).map (·.val.status)

/-- The events that let a user have another subscription. -/
def Event.buys : Event → Bool
  | .checkout_session_completed _ => true
  | .invoice_payment_succeeded _ => true
  | _ => false

/-- What a request may make of the status of the row `r`: from no row, or from any status,
to the one that stands for the request. -/
inductive StatusChange (w : World) (r : Subscription) :
    Request → Option SubscriptionStatus → SubscriptionStatus → Prop
  /-- An invoice was paid, of this subscription. -/
  | paid {invoice : Invoice} (old : Option SubscriptionStatus)
      (hid : invoice.subscription = r.provider_subscription_id) :
      StatusChange w r (.webhook (.invoice_payment_succeeded invoice)) old .ACTIVE
  /-- A checkout sold it, and nothing is paid yet. -/
  | sold {session : SessionObject} (hid : session.subscription = r.provider_subscription_id) :
      StatusChange w r (.webhook (.checkout_session_completed session)) none .PAST_DUE
  /-- An invoice of it was not paid. -/
  | failed {invoice : Invoice} (old : SubscriptionStatus)
      (hid : invoice.subscription = r.provider_subscription_id) :
      StatusChange w r (.webhook (.invoice_payment_failed invoice)) (some old) .PAST_DUE
  /-- Its user asked to cancel. -/
  | asked (old : SubscriptionStatus) : StatusChange w r (.cancel r.user_id) (some old) .CANCELED
  /-- Stripe ended it. -/
  | ended {d : DeletedSubscription} (old : SubscriptionStatus)
      (hid : d.id = r.provider_subscription_id) :
      StatusChange w r (.webhook (.customer_subscription_deleted d)) (some old) .CANCELED
  /-- Its user bought a subscription, this one or another. -/
  | replaced {e : Event} {id : StripeId} (old : SubscriptionStatus) (hbuys : e.buys = true)
      (hid : e.subscription = some id) (howner : w.owner id = some r.user_id) :
      StatusChange w r (.webhook e) (some old) .CANCELED

theorem StatusChange.congr {w : World} {r r' : Subscription} {q : Request}
    {old : Option SubscriptionStatus} {st : SubscriptionStatus} (h : StatusChange w r q old st)
    (hu : r'.user_id = r.user_id)
    (hps : r'.provider_subscription_id = r.provider_subscription_id) :
    StatusChange w r' q old st := by
  cases h with
  | paid old hid => exact .paid old (hid.trans hps.symm)
  | sold hid => exact .sold (hid.trans hps.symm)
  | failed old hid => exact .failed old (hid.trans hps.symm)
  | asked old =>
    rw [← hu]
    exact .asked old
  | ended old hid => exact .ended old (hid.trans hps.symm)
  | replaced old hbuys hid howner => exact .replaced old hbuys hid (howner.trans (by rw [hu]))

/-! ## One act -/

section

variable {h : Past} {q : Request} {w w' : World}

theorem World.status_of_mem {r : Row Subscription} (hr : r ∈ w.db.subscriptions.rows) :
    w.status_of r.id = some r.val.status := by
  rw [World.status_of, Table.byId_of_mem hr, Option.map_some]

theorem World.status_of_new (old : Option (Row Subscription)) (s : Subscription) :
    w.status_of ((w.demote_held old).db.subscriptions.newRow s).id = none := by
  have hnext : ((w.demote_held old).db.subscriptions.newRow s).id = w.db.subscriptions.next := by
    cases old <;> rfl
  rw [hnext, World.status_of, Table.byId_eq_none.mpr, Option.map_none]
  exact fun r hr => Nat.ne_of_lt (w.db.subscriptions.id_lt r hr)

/-- A flush leaves the status, however old its object is, or writes the one that was set. -/
theorem SubscriptionPatch.status_flush {p : SubscriptionPatch} {held : Subscription}
    {st : SubscriptionStatus} (hp : (p.apply held).status = st) (r : Subscription) :
    ((p.flush held).apply r).status = r.status ∨ ((p.flush held).apply r).status = st := by
  rw [← hp]
  exact flushed_or _ _ _

theorem Flushes.status {r : Row Subscription} {p : SubscriptionPatch} (hf : Flushes h q w r p)
    (hwho : w.Concerns q r.val.user_id) : (p.apply r.val).status = r.val.status ∨
      StatusChange w r.val q (some r.val.status) (p.apply r.val).status := by
  cases hf with
  | period hq hid hps _ =>
    refine (SubscriptionPatch.status_flush rfl r.val).imp_right fun hs => ?_
    rw [hs, hq]
    exact .paid _ (hid.trans hps.symm)
  | cancel_request hq _ _ _ =>
    refine (SubscriptionPatch.status_flush rfl r.val).imp_right fun hs => ?_
    rw [hs, hq]
    exact .asked _
  | @cancel_event _ e _ _ hq hends _ _ =>
    refine (SubscriptionPatch.status_flush rfl r.val).imp_right fun hs => ?_
    rw [hs]
    subst hq
    cases e with
    | customer_subscription_deleted d => exact .ended _ hends
    | checkout_session_completed session =>
      obtain ⟨id, hid, howner⟩ := Option.bind_eq_some_iff.mp hwho
      exact .replaced _ rfl hid howner
    | _ => exact hends.elim
  | past_due hq hid hps =>
    refine (SubscriptionPatch.status_flush rfl r.val).imp_right fun hs => ?_
    rw [hs, hq]
    exact .failed _ (hid.trans hps.symm)

theorem StatusChange.of_makes {e : Event} {st : SubscriptionStatus} {r : Subscription}
    (hst : e.Makes st) (hid : e.subscription = r.provider_subscription_id) :
    StatusChange w r (.webhook e) none st := by
  cases e with
  | checkout_session_completed session =>
    cases hst
    exact .sold hid
  | invoice_payment_succeeded invoice =>
    cases hst
    exact .paid none hid
  | _ => exact hst.elim

theorem Event.Makes.buys {e : Event} {st : SubscriptionStatus} (hst : e.Makes st) :
    e.buys = true := by
  cases e with
  | checkout_session_completed session => rfl
  | invoice_payment_succeeded invoice => rfl
  | _ => exact hst.elim

/-- The step lemma: a row has the status that it had, or the act is of a request that
may change it. -/
theorem Deed.status_of (hd : Deed h q w w') {r : Row Subscription}
    (hr : r ∈ w'.db.subscriptions.rows) : w.status_of r.id = some r.val.status ∨
      StatusChange w r.val q (w.status_of r.id) r.val.status := by
  have hsame : w'.db.subscriptions = w.db.subscriptions →
      w.status_of r.id = some r.val.status := fun heq => World.status_of_mem (by rwa [← heq])
  cases hd with
  | @patch s p hs hwhy hwho =>
    rcases World.mem_update_subscription.mp hr with ⟨r₀, hr₀, hid, rfl⟩ | ⟨hr₀, _⟩
    · obtain rfl := Table.eq_of_id hr₀ hs hid
      rw [World.status_of_mem (r := r₀) hr₀]
      refine (hwhy.status hwho).imp (fun hst => congrArg some hst.symm) fun hc => ?_
      exact hc.congr (p.user_id _) (p.provider_subscription_id _)
    · exact Or.inl (World.status_of_mem hr₀)
  | @create e id u pl cu st S old t r' db hq hid hst _ hS hn hold hdb =>
    obtain ⟨hnew, hfits, hrows, _⟩ := Db.insert_subscription_ok hdb
    simp only [hrows, List.mem_append, List.mem_singleton] at hr
    rcases hr with hr | rfl
    · obtain ⟨s, hs, hsid, hu, hps, hst' | ⟨hst', o, ho, hos⟩⟩ := World.rows_demote_held_status hr
      · left
        rw [← hsid, World.status_of_mem hs, hst']
      · right
        obtain ⟨o', ho', hid', hu', _⟩ := hold o ho
        obtain rfl := Table.eq_of_id ho' hs (hid'.trans hos)
        rw [← hsid, World.status_of_mem hs, hst', hq]
        exact .replaced _ hst.buys hid ((World.owner_eq hS hn.user).trans (by rw [hu, hu']))
    · right
      rw [hnew, World.status_of_new old, hq]
      exact .of_makes hst hid
  | record _ _ _ hdb =>
    obtain ⟨_, _, _, hsubs, _⟩ := Db.insert_payment_ok hdb
    exact Or.inl (hsame hsubs)
  | _ => exact Or.inl (hsame rfl)

end

/-! ## Runs -/

section

variable {user_repo : UserRepo} {w₀ : World} {b c : Pool World Err Unit}
  {before after : List (Moment Request Label)}

/-- A moment of a run at which the status of a row becomes another one is an act, and
the request of that act is one that may do so. -/
theorem status_change_at {t : Pool World Err Unit} {m : Moment Request Label} {i : UUID}
    {st : SubscriptionStatus} (h0 : Initial w₀)
    (hrun : (traffic user_repo).Run (fun _ _ => True) ([], w₀) before t)
    (he : (traffic user_repo).enabled t m) (hold : t.2.status_of i ≠ some st)
    (hnew : ((traffic user_repo).next t m).2.status_of i = some st) :
    ∃ j q r, m = .act j ∧ (arrivals before)[j]? = some q ∧
      r ∈ ((traffic user_repo).next t m).2.db.subscriptions.rows ∧ r.id = i ∧
      StatusChange t.2 r.val q (t.2.status_of i) st := by
  cases m with
  | arrive q => exact absurd hnew hold
  | outside l =>
    have hdb : ((outside user_repo).next t.2 l).db = t.2.db := outside_db he.2
    refine absurd ?_ hold
    rw [World.status_of, ← hdb]
    exact hnew
  | act j =>
    obtain ⟨_, _, hflight⟩ := traffic_run h0 hrun
    obtain ⟨r, hb, hst⟩ := Option.map_eq_some_iff.mp hnew
    obtain ⟨hr, hid⟩ := Table.byId_eq_some.mp hb
    rcases (hflight.step j).2 with heq | ⟨q, hq, _, hdeed⟩
    · refine absurd ?_ hold
      rw [← heq]
      exact hnew
    · refine ⟨j, q, r, rfl, hq, hr, hid, ?_⟩
      have hchange := hdeed.status_of hr
      rw [hid, hst] at hchange
      exact hchange.resolve_left hold

/-- The life of the subscriptions under traffic, from any state `b` of a run to any
later one: a row stays, with its user, its plan and its Stripe subscription; and where
its status is another one than in `b`, or the row was not there, that status was written
after `b`, by an act of a request in flight that stands for it. -/
theorem statuses_have_causes_under_traffic (h0 : Initial w₀)
    (hbefore : (traffic user_repo).Run (fun _ _ => True) ([], w₀) before b)
    (hafter : (traffic user_repo).Run (fun _ _ => True) b after c) :
    (∀ s ∈ b.2.db.subscriptions.rows, ∃ r ∈ c.2.db.subscriptions.rows, r.id = s.id ∧
      r.val.user_id = s.val.user_id ∧ r.val.plan_id = s.val.plan_id ∧
      r.val.provider_subscription_id = s.val.provider_subscription_id) ∧
    ∀ r ∈ c.2.db.subscriptions.rows, b.2.status_of r.id ≠ some r.val.status →
      ∃ t j q, (traffic user_repo).Took (fun _ _ => True) b after c t (.act j) ∧
        (arrivals (before ++ after))[j]? = some q ∧
        StatusChange t.2 r.val q (t.2.status_of r.id) r.val.status := by
  have hrun := hbefore.append hafter
  refine ⟨fun s hs => ?_, fun r hr hb => ?_⟩
  · obtain ⟨r, hr, hid, hu, hp, _, hps⟩ :=
      (traffic_between h0 hrun ⟨before, after, rfl, hbefore, hafter⟩).1.grows.rows s hs
    exact ⟨r, hr, hid, hu, hp, hps⟩
  · obtain ⟨t, m, htook, hold, hnew⟩ :=
      hafter.origin (P := fun x => x.2.status_of r.id = some r.val.status) hb
        (World.status_of_mem hr)
    obtain ⟨pre, post, rfl, hpre, he, hc, hpost⟩ := htook
    obtain ⟨j, q, r', rfl, hq, hr', hid, hchange⟩ :=
      status_change_at h0 (hbefore.append hpre) he hold hnew
    refine ⟨t, j, q, ⟨pre, post, rfl, hpre, he, hc, hpost⟩, ?_, ?_⟩
    · have harr : arrivals (before ++ (pre ++ .act j :: post)) =
          arrivals (before ++ pre) ++ arrivals (.act j :: post) := by
        rw [← List.append_assoc]
        exact List.filterMap_append
      rw [harr, List.getElem?_append_left (List.getElem?_eq_some_iff.mp hq).1, hq]
    · -- the row that was written is the row at the end, and it is still the same user's
      have hstep := (hbefore.append hpre).snoc (.act j) he hc
      obtain ⟨r'', hr'', hid'', hu, _, _, hps⟩ := (traffic_between h0 hrun
        ⟨_, post, by simp, hstep, hpost⟩).1.grows.rows r' hr'
      obtain rfl := Table.eq_of_id hr'' hr (hid''.trans hid)
      exact hchange.congr hu hps

end

open Sample in
/-- Ann's row is active at the end, and an act of a delivery of her invoice made it so. -/
theorem statuses_have_causes_under_traffic_sample :
    let c := (traffic .user).exec ([], world) delivered_again
    ∃ t j q, (traffic .user).Took (fun _ _ => True) ([], world) delivered_again c t (.act j) ∧
      (arrivals delivered_again)[j]? = some q ∧
      StatusChange t.2 ⟨0, 0, .ACTIVE, .STRIPE, some 0, some 7, fromtimestamp 900,
        some (fromtimestamp 2000), none, false⟩ q (t.2.status_of 0) .ACTIVE :=
  (statuses_have_causes_under_traffic world_initial (.nil _)
    (.of_path (by decide +kernel))).2 ⟨0, ⟨0, 0, .ACTIVE, .STRIPE, some 0, some 7,
      fromtimestamp 900, some (fromtimestamp 2000), none, false⟩⟩ (by decide +kernel)
    (by decide +kernel)

end saas
