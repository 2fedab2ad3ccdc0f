-- What holds of billing whatever is in flight: the payments are a ledger of the paid
-- invoices, a period in the future was paid for or is Stripe's, and a request acts
-- on its own account only. Requests may be cut anywhere, and may die there.
import SaasBackend.Tenants
import SaasBackend.TrafficSteps

open relational async

namespace saas

/-! ## What a run has seen -/

theorem outside_db {user_repo : UserRepo} {w : World} {l : Label} (hout : l.outside = true) :
    ((outside user_repo).next w l).db = w.db := by
  change (l.next user_repo w).db = w.db
  cases l with
  | serve r n => cases hout
  | pay session items =>
    change (((w.stripe.sessions.byId session).map (w.pay · items)).getD w).db = w.db
    cases w.stripe.sessions.byId session <;> rfl
  | _ => rfl

section

variable {user_repo : UserRepo} {c c' b : Pool World Err Unit} {ls : List (Moment Request Label)}

/-- The run comes through a state with the world `v`. -/
def Seen (user_repo : UserRepo) (c : Pool World Err Unit) (ls : List (Moment Request Label))
    (c' : Pool World Err Unit) (v : World) : Prop :=
  ∃ ps, (traffic user_repo).Visits (fun _ _ => True) c ls c' (ps, v)

/-- Stripe has the subscription, and its first item ends then. -/
def World.EndsAt (v : World) (id : StripeId) (t : Time) : Prop :=
  ∃ S item, v.stripe.subscriptions.byId id = some S ∧ item ∈ S.val.items.head? ∧
    t = fromtimestamp item.current_period_end

/-- Stripe's answer to a cancellation of the subscription would carry this end. -/
def World.AnswersWith (v : World) (id : StripeId) (t : Time) : Prop :=
  ∃ S, v.stripe.subscriptions.byId id = some S ∧
    t ∈ (truthy S.val.current_period_end).map fromtimestamp

def Past.of (ls : List (Moment Request Label)) (seen : World → Prop) : Past where
  requests q := .arrive q ∈ ls
  periods id t := ∃ v, seen v ∧ v.EndsAt id t
  answers id t := ∃ v, seen v ∧ v.AnswersWith id t
  stopped id := .outside (.stop id) ∈ ls

theorem World.told_of_seen {seen : World → Prop} {v : World} (hv : seen v) :
    v.Told (Past.of ls seen) := fun _ S hS =>
  ⟨fun item hitem => ⟨v, hv, S, item, hS, hitem, rfl⟩, fun _ he => ⟨v, hv, S, hS, he⟩⟩

theorem traffic_sees (hrun : (traffic user_repo).Run (fun _ _ => True) c ls c') :
    (traffic user_repo).Run ((Past.of ls (Seen user_repo c ls c')).Sees user_repo) c ls c' := by
  refine hrun.strengthen fun t m htook => ?_
  cases m with
  | arrive q => exact htook.mem
  | act i => trivial
  | outside l =>
    refine ⟨World.told_of_seen ⟨t.1, htook.visits_next⟩, fun id hl => ?_⟩
    subst hl
    exact htook.mem

variable {w₀ : World}

theorem Initial.sound {h : Past} {w : World} (h0 : Initial w) (ht : w.Told h) : Sound h w where
  good := h0.good
  told := ht
  honest r hr := by simp [h0.subscriptions] at hr
  paid r hr := by simp [h0.subscriptions] at hr

/-- The run lemma for runs that begin with nothing in flight, from any state that
they come through. -/
theorem traffic_between (h0 : Initial w₀)
    (hrun : (traffic user_repo).Run (fun _ _ => True) ([], w₀) ls c)
    (hb : (traffic user_repo).Visits (fun _ _ => True) ([], w₀) ls c b) :
    Meanwhile (Past.of ls (Seen user_repo ([], w₀) ls c)) b.2 c.2 ∧
      Sound (Past.of ls (Seen user_repo ([], w₀) ls c)) b.2 := by
  have hsees := traffic_sees hrun
  have hsound : Sound (Past.of ls (Seen user_repo ([], w₀) ls c)) w₀ :=
    h0.sound (World.told_of_seen ⟨[], hrun.visits_start⟩)
  obtain ⟨before, after, rfl, hbefore, _⟩ := hb
  obtain ⟨t, h1, h2⟩ := hsees.append_inv
  have ht : t = b := by rw [h1.exec_eq, hbefore.exec_eq]
  subst ht
  obtain ⟨_, hst, hflight⟩ := traffic_moves h1 .nil hsound
  exact ⟨(traffic_moves h2 hflight hst).1, hst⟩

theorem traffic_run (h0 : Initial w₀)
    (hrun : (traffic user_repo).Run (fun _ _ => True) ([], w₀) ls c) :
    Meanwhile (Past.of ls (Seen user_repo ([], w₀) ls c)) w₀ c.2 ∧
      Sound (Past.of ls (Seen user_repo ([], w₀) ls c)) c.2 ∧
        Pool.InFlight (Past.of ls (Seen user_repo ([], w₀) ls c)) (arrivals ls) c := by
  have hsound : Sound (Past.of ls (Seen user_repo ([], w₀) ls c)) w₀ :=
    h0.sound (World.told_of_seen ⟨[], hrun.visits_start⟩)
  exact traffic_moves (traffic_sees hrun) .nil hsound

theorem mem_of_arrivals {j : Nat} {q : Request} (h : (arrivals ls)[j]? = some q) :
    .arrive q ∈ ls := by
  obtain ⟨m, hm, hq⟩ := List.mem_filterMap.mp (List.mem_of_getElem? h)
  cases m with
  | arrive q' =>
    cases hq
    exact hm
  | _ => cases hq

/-- An act of a run changes nothing, or it is a deed of its request. -/
theorem traffic_took (h0 : Initial w₀) {t : Pool World Err Unit} {j : Nat}
    (hrun : (traffic user_repo).Run (fun _ _ => True) ([], w₀) ls c)
    (htook : (traffic user_repo).Took (fun _ _ => True) ([], w₀) ls c t (.act j)) :
    (t.step j).2 = t.2 ∨ ∃ q, (arrivals ls)[j]? = some q ∧
      Deed (Past.of ls (Seen user_repo ([], w₀) ls c)) q t.2 (t.step j).2 := by
  have hsees := traffic_sees hrun
  have hsound : Sound (Past.of ls (Seen user_repo ([], w₀) ls c)) w₀ :=
    h0.sound (World.told_of_seen ⟨[], hrun.visits_start⟩)
  obtain ⟨before, after, rfl, hbefore, _⟩ := htook
  obtain ⟨t', h1, _⟩ := hsees.append_inv
  have ht : t' = t := by rw [h1.exec_eq, hbefore.exec_eq]
  subst ht
  obtain ⟨_, _, hflight⟩ := traffic_moves h1 .nil hsound
  refine (hflight.step j).2.imp_right fun ⟨q, hq, _, hdeed⟩ => ⟨q, ?_, hdeed⟩
  have harrivals : arrivals (before ++ Moment.act j :: after) =
      arrivals before ++ arrivals (.act j :: after) := List.filterMap_append
  rw [List.nil_append] at hq
  rw [harrivals, List.getElem?_append_left (List.getElem?_eq_some_iff.mp hq).1]
  exact hq

end

/-! ## One request at a time -/

/-- A label of the service that handles one request at a time, as traffic: the request
comes, and takes its acts with nobody between, as many as it lives for. -/
theorem label_in_traffic {user_repo : UserRepo} {c : Pool World Err Unit} {l : Label}
    (he : (billing user_repo).enabled c.2 l) : ∃ ms c', (traffic user_repo).Run (fun _ _ => True)
      c ms c' ∧ c'.2 = (billing user_repo).next c.2 l := by
  have hserve : ∀ (q : Request) (n : Nat), q.Valid c.2 →
      ∃ ms c', (traffic user_repo).Run (fun _ _ => True) c ms c' ∧
        c'.2 = (q.prog user_repo).cut n c.2 := by
    intro q n hv
    obtain ⟨p, hp⟩ : ∃ p, (traffic user_repo).Run (fun _ _ => True)
        (c.1 ++ [Session.prog user_repo q], c.2) (List.replicate n (.act c.1.length))
        (c.1 ++ [p], (Session.prog user_repo q).cut n c.2) :=
      server_alone n (Session.prog user_repo q) c.1 c.2
    have harrive : (traffic user_repo).Run (fun _ _ => True) c [Moment.arrive q]
        (c.1 ++ [Session.prog user_repo q], c.2) :=
      .one (S := traffic user_repo) (.arrive q) hv trivial
    exact ⟨_, _, harrive.append hp, (Session.prog.same user_repo q c.2).cut n⟩
  have hout : l.outside = true → l.Enabled c.2 → ∃ ms c',
      (traffic user_repo).Run (fun _ _ => True) c ms c' ∧ c'.2 = l.next user_repo c.2 :=
    fun ho hl => ⟨[.outside l], (c.1, l.next user_repo c.2),
      .one (S := traffic user_repo) (.outside l) (And.intro hl ho) trivial, rfl⟩
  cases l with
  | serve q n =>
    cases n with
    | none =>
      obtain ⟨ms, c', hrun, hc'⟩ := hserve q ((q.prog user_repo).steps c.2) he
      exact ⟨ms, c', hrun, by rw [hc', Proc.cut_steps]; rfl⟩
    | some n => exact hserve q n he
  | _ => exact hout rfl he

/-- Traffic is the service with more in it: where the service gets that handles one
request at a time, traffic gets too. What holds of all traffic holds there. -/
theorem one_at_a_time_is_traffic {user_repo : UserRepo} {w w' : World} {ls : List Label}
    (hrun : (billing user_repo).Run (fun _ _ => True) w ls w') :
    ∃ ms c, (traffic user_repo).Run (fun _ _ => True) ([], w) ms c ∧ c.2 = w' := by
  induction hrun with
  | nil => exact ⟨[], _, .nil _, rfl⟩
  | snoc l _ he _ ih =>
    obtain ⟨ms, c, hms, rfl⟩ := ih
    obtain ⟨ns, c', hns, hc'⟩ := label_in_traffic he
    exact ⟨ms ++ ns, c', hms.append hns, hc'⟩

open Sample in
theorem one_at_a_time_is_traffic_sample :
    ∃ ms c, (traffic .user).Run (fun _ _ => True) ([], world) ms c ∧ c.2 = begun :=
  one_at_a_time_is_traffic (show (billing .user).Run (fun _ _ => True) world
    [subscribe "pro", .pay 0 [⟨900, 2000⟩], checkout 0] begun from .of_path (by decide))

/-! ## The ledger -/

/-- However the handlers overlap, whatever is delivered twice and wherever a request
dies: one payment row for each invoice at most, each of an invoice that was
delivered; a delivery that has returned has its row; and no row goes away. -/
theorem the_ledger_holds_under_traffic {user_repo : UserRepo} {w₀ : World}
    {c : Pool World Err Unit} {ls : List (Moment Request Label)} (h0 : Initial w₀)
    (hrun : (traffic user_repo).Run (fun _ _ => True) ([], w₀) ls c) :
    (∀ p ∈ c.2.db.payments.rows, ∀ p' ∈ c.2.db.payments.rows,
      p.val.provider_invoice_id = p'.val.provider_invoice_id → p = p') ∧
    (∀ p ∈ c.2.db.payments.rows, ∃ invoice,
      .arrive (.webhook (.invoice_payment_succeeded invoice)) ∈ ls ∧ c.2.Books invoice p) ∧
    (∀ (i : Nat) invoice, (arrivals ls)[i]? = some (.webhook (.invoice_payment_succeeded invoice)) →
      c.1[i]?.bind Proc.returned = some () → ∃ p ∈ c.2.db.payments.rows, c.2.Books invoice p) ∧
    (∀ b, (traffic user_repo).Visits (fun _ _ => True) ([], w₀) ls c b →
      ∀ p ∈ b.2.db.payments.rows, p ∈ c.2.db.payments.rows) := by
  obtain ⟨hmoves, _, hflight⟩ := traffic_run h0 hrun
  have hbooks : ∀ p ∈ c.2.db.payments.rows, ∃ invoice,
      .arrive (.webhook (.invoice_payment_succeeded invoice)) ∈ ls ∧ c.2.Books invoice p := by
    intro p hp
    rcases hmoves.payments.2 p hp with hold | hnew
    · simp [h0.payments] at hold
    · exact hnew
  refine ⟨?_, hbooks, fun i invoice hi hret => hflight.returned hi hret () rfl, fun b hb p hp =>
    (traffic_between h0 hrun hb).1.payments.1 p hp⟩
  intro p hp p' hp' hid
  obtain ⟨_, _, hb⟩ := hbooks p hp
  obtain ⟨_, _, hb'⟩ := hbooks p' hp'
  refine Table.eq_of_key (k := (PaymentProvider.STRIPE, p.val.provider_invoice_id)) hp hp' ?_ ?_
  · simp [Keyed.keys, hb.provider]
  · simp [Keyed.keys, hb'.provider, hid]

open Sample in
/-- Three events at once, two of them one invoice: one delivery returned, and there is
one row. -/
theorem the_ledger_holds_under_traffic_sample :
    let c := (traffic .user).exec ([], world) side_by_side
    c.1.map Proc.returned = [some (), none, some (), none] ∧
    ∃ p ∈ c.2.db.payments.rows, c.2.Books (invoice 0 0 .subscription_create) p :=
  ⟨by decide +kernel, (the_ledger_holds_under_traffic world_initial
    (.of_path (by decide +kernel))).2.2.1 2 _ (by decide +kernel) (by decide +kernel)⟩

/-! ## Periods -/

/-- The end of a row, if there is one. -/
def World.end_of (w : World) (i : UUID) : Option Time :=
  (w.db.subscriptions.byId i).bind (·.val.current_period_end)

/-- An act of the request has written the end of the row. -/
def EndWritten (user_repo : UserRepo) (c : Pool World Err Unit) (ls : List (Moment Request Label))
    (c' : Pool World Err Unit) (i : UUID) (t : Time) (q : Request) : Prop :=
  ∃ b j, (traffic user_repo).Took (fun _ _ => True) c ls c' b (.act j) ∧
    (arrivals ls)[j]? = some q ∧ b.2.end_of i ≠ some t ∧ (b.step j).2.end_of i = some t

theorem World.end_of_mem {w : World} {r : Row Subscription} (hr : r ∈ w.db.subscriptions.rows) :
    w.end_of r.id = r.val.current_period_end := by
  rw [World.end_of, Table.byId_of_mem hr, Option.bind_some]

/-- Whatever overlaps and whatever is written late: a row whose period ends in the
future was paid for, by an invoice of its own subscription that came. The end is Stripe's,
and was written by an act of a request in flight: Stripe had it for the subscription, and
the request is a paid invoice of it; or Stripe answers a cancellation with it, and the
request is that of the row's user to cancel. -/
theorem periods_are_granted_under_traffic {user_repo : UserRepo} {w₀ : World}
    {c : Pool World Err Unit} {ls : List (Moment Request Label)} (h0 : Initial w₀)
    (hrun : (traffic user_repo).Run (fun _ _ => True) ([], w₀) ls c) {r : Row Subscription}
    (hr : r ∈ c.2.db.subscriptions.rows) {t : Time} (ht : r.val.current_period_end = some t)
    (hfuture : c.2.clock < t) :
    ∃ id invoice q v, r.val.provider_subscription_id = some id ∧
      invoice.subscription = some id ∧
      .arrive (.webhook (.invoice_payment_succeeded invoice)) ∈ ls ∧
      EndWritten user_repo ([], w₀) ls c r.id t q ∧ Seen user_repo ([], w₀) ls c v ∧
      (v.EndsAt id t ∧ (∃ renewal, q = .webhook (.invoice_payment_succeeded renewal) ∧
          renewal.subscription = some id) ∨
        v.AnswersWith id t ∧ q = .cancel r.val.user_id) := by
  have hnone : w₀.end_of r.id ≠ some t := by
    simp [World.end_of, h0.subscriptions, Table.byId]
  obtain ⟨b, m, htook, hold, hnew⟩ := hrun.origin (P := fun c => c.2.end_of r.id = some t) hnone
    (by rw [World.end_of_mem hr, ht])
  cases m with
  | arrive q => exact absurd hnew hold
  | outside l =>
    obtain ⟨_, _, _, _, he, _⟩ := htook
    have hdb : ((outside user_repo).next b.2 l).db = b.2.db := outside_db he.2
    refine absurd ?_ hold
    rw [World.end_of, ← hdb]
    exact hnew
  | act j =>
    rcases traffic_took h0 hrun htook with heq | ⟨q, hq, hdeed⟩
    · refine absurd ?_ hold
      rw [← heq]
      exact hnew
    · obtain ⟨r', hb, hend⟩ := Option.bind_eq_some_iff.mp hnew
      obtain ⟨hr', hid⟩ := Table.byId_eq_some.mp hb
      have hlater := (traffic_between h0 hrun htook.visits_next).1.grows
      obtain ⟨r'', hr'', hid'', hu, _, _, hps⟩ := hlater.rows r' hr'
      obtain rfl := Table.eq_of_id hr'' hr (hid''.trans hid)
      have hwritten : EndWritten user_repo ([], w₀) ls c r''.id t q := ⟨b, j, htook, hq, hold, hnew⟩
      rcases hdeed.ends (mem_of_arrivals hq) hr' hend with ⟨s, hs, hsid, hsend, _⟩ | hle | hgrants
      · refine absurd ?_ hold
        rw [← hid, ← hsid, World.end_of_mem hs, hsend]
      · have hpast := Nat.le_trans hle (Nat.le_trans hdeed.grows.clock hlater.clock)
        exact absurd hpast (Nat.not_le.mpr hfuture)
      · obtain ⟨id, hid', ⟨invoice, hinvoice, hcame⟩, ⟨renewal, hq', hrenewal, v, hv, hend'⟩ |
          ⟨hq', v, hv, hans⟩⟩ := hgrants.congr hps hu
        · exact ⟨id, invoice, q, v, hid', hinvoice, hcame, hwritten, hv,
            Or.inl ⟨hend', renewal, hq', hrenewal⟩⟩
        · exact ⟨id, invoice, q, v, hid', hinvoice, hcame, hwritten, hv, Or.inr ⟨hans, hq'⟩⟩

open Sample in
/-- Ann's row ends in the future: her invoice came, and Stripe had that end. -/
theorem periods_are_granted_under_traffic_sample :
    let c := (traffic .user).exec ([], world) delivered_again
    ∃ id invoice q v, some 0 = some id ∧ invoice.subscription = some id ∧
      .arrive (.webhook (.invoice_payment_succeeded invoice)) ∈ delivered_again ∧
      EndWritten .user ([], world) delivered_again c 0 (fromtimestamp 2000) q ∧
      Seen .user ([], world) delivered_again c v ∧
      (v.EndsAt id (fromtimestamp 2000) ∧
          (∃ renewal, q = .webhook (.invoice_payment_succeeded renewal) ∧
            renewal.subscription = some id) ∨
        v.AnswersWith id (fromtimestamp 2000) ∧ q = .cancel 0) :=
  periods_are_granted_under_traffic world_initial (.of_path (by decide +kernel))
    (r := ⟨0, ⟨0, 0, .ACTIVE, .STRIPE, some 0, some 7, fromtimestamp 900,
      some (fromtimestamp 2000), none, false⟩⟩) (by decide +kernel) rfl (by decide +kernel)

/-! ## Accounts -/

section

variable {h : Past} {q : Request} {w w' : World}

theorem World.Isolates.demote_held {old : Option (Row Subscription)} {u : UUID}
    (hold : ∀ o ∈ old, ∃ o' ∈ w.db.subscriptions.rows, o'.id = o.id ∧ o'.val.user_id = u ∧
      w.Earned h o'.val) : w.Isolates u (w.demote_held old) := by
  cases old with
  | none => exact .refl u w
  | some o =>
    obtain ⟨o', ho', hid, hu, _⟩ := hold o rfl
    rw [show w.demote_held (some o) =
      w.update_subscription o'.id (SubscriptionPatch.demote.flush o.val) by rw [hid]; rfl]
    exact .patch _ ho' hu

theorem Deed.isolates (hd : Deed h q w w') (hg : Good w) {u : UUID}
    (hu : ∀ v, w.Concerns q v → v = u) : w.Isolates u w' := by
  cases hd with
  | rest => exact .refl u w
  | customer hwho => exact { World.Isolates.refl u w with customers := .append (hu _ hwho) _ }
  | store_customer customer hwho =>
    refine { World.Isolates.refl u w with users := ?_ }
    exact Table.SameBut.update (UserPatch.stripe_customer _).keys fun r _ hid =>
      ⟨hid.trans (hu _ hwho), hid.trans (hu _ hwho)⟩
  | open_session href _ _ hwho =>
    rw [hu _ hwho] at href
    exact { World.Isolates.refl u w with sessions := .append href _ }
  | status _ _ howner hwho =>
    rw [hu _ hwho] at howner
    exact .set_status _ howner
  | patch hr _ hwho => exact .patch _ hr (hu _ hwho)
  | create hq hid _ _ hS hn hold hdb =>
    obtain rfl := hu _ (World.concerns_owner hq hid (World.owner_eq hS hn.user))
    exact (World.Isolates.demote_held hold).trans (.insert_subscription hdb rfl)
  | record hq hid hs hdb =>
    exact .insert_payment hdb (hu _ (World.concerns_owner hq hid (hg.owner hs)))
  | enqueue => exact { World.Isolates.refl u w with }

end

/-- In any traffic, whoever takes the next act, it changes only what belongs to the
account that its request is of, or that owns the subscription of its event: the
accounts are apart however their requests overlap. -/
theorem accounts_are_apart_under_traffic {user_repo : UserRepo} {w₀ : World}
    {c : Pool World Err Unit} {ls : List (Moment Request Label)} (h0 : Initial w₀)
    (hrun : (traffic user_repo).Run (fun _ _ => True) ([], w₀) ls c) (i : Nat) (u : UUID)
    (hu : ∀ q, (arrivals ls)[i]? = some q → ∀ v, c.2.Concerns q v → v = u) :
    c.2.Isolates u (c.step i).2 := by
  obtain ⟨_, hsound, hflight⟩ := traffic_run h0 hrun
  rcases (hflight.step i).2 with heq | ⟨q, hq, _, hdeed⟩
  · rw [heq]
    exact .refl u c.2
  · exact hdeed.isolates hsound.good (hu q hq)

open Sample in
/-- The act that makes Ann's row. -/
theorem accounts_are_apart_under_traffic_sample :
    let before := side_by_side.take 26
    let c := (traffic .user).exec ([], world) before
    c.2.db.subscriptions.rows ≠ (c.step 2).2.db.subscriptions.rows ∧ c.2.Isolates 0 (c.step 2).2 :=
  ⟨by decide +kernel, accounts_are_apart_under_traffic world_initial (.of_path (by decide +kernel))
    2 0 fun q hq v hv => by
      cases Option.some.inj (show some _ = some q from hq)
      exact Option.some.inj (Eq.trans (Eq.symm hv) (by decide +kernel))⟩

end saas
