import Verixa.Collections.Latch
import Verixa.Concurrency.Run
import Verixa.StellarAnchor.BalanceMonitor

/-!
# Delivered funding alerts

Checks and reported rejections over one monitor, in any order, each alert delivered or refused some
time after it is raised.  The history says where a problem was found, which deliveries succeeded and
which status a check resolved with.

The monitor is to be loud: a check that resolves with a status other than funded has, since the last
funded status, an alert about a problem delivered; and once a funded status follows such an alert,
the recovery is announced once before the next problem.  The kind alerted last is noted before the
alert is delivered, so after a refused delivery the same alert is not raised again, and the next
check of the same condition resolves with nothing said (`not_loud_after_refusal`).  The calls that
follow one another and never meet the kind of an alert whose delivery was refused are loud
(`loud_unless_refused`).
-/

namespace Verixa.StellarAnchor

open Collections Concurrency

/-- What is noted of a run. -/
inductive Happening where
  /-- A check or the ledger found a problem. -/
  | problem
  /-- An alert was delivered, or its delivery was refused. -/
  | settled (alert : AnchorFundingAlert) (delivered : Bool)
  /-- A check resolved with a status. -/
  | resolved (status : AnchorFundingStatus)

namespace Happening

/-- An alert about a problem was delivered. -/
def alarms : Happening → Bool
  | settled alert true => alert.kind != .recovered
  | _ => false

/-- The recovery was announced. -/
def recovers : Happening → Bool
  | settled alert true => alert.kind == .recovered
  | _ => false

/-- A check resolved with the status funded. -/
def funds : Happening → Bool
  | resolved status => status.isFunded
  | _ => false

/-- A problem was found. -/
def isProblem : Happening → Bool
  | problem => true
  | _ => false

/-- Whether an alert was delivered. -/
def delivery : Happening → Option Bool
  | settled _ delivered => some delivered
  | _ => none

end Happening

/-- The call that waits for an alert to be delivered. -/
inductive Waiting where
  | check (status : AnchorFundingStatus)
  | reportUnderfundedRejection

/-- An alert on its way. -/
structure Sending where
  waiting : Waiting
  alert : AnchorFundingAlert

/-- A monitor, the alerts on their way, and what has happened so far. -/
structure Watch where
  monitor : AnchorBalanceMonitor
  sending : List Sending
  history : List Happening

/-- What can happen next. -/
inductive WatchEvent where
  /-- The reader answers a check. -/
  | read (reading : Except BalanceUnavailableError AnchorAccountBalance) (now : Date)
  /-- A rejection by the ledger is reported. -/
  | report (detail : String) (now : Date)
  /-- The alerter delivers or refuses an alert on its way. -/
  | settle (i : ℕ) (delivered : Bool)

/-- The problem noted for a status. -/
def problemOf (status : AnchorFundingStatus) : List Happening :=
  if status.isFunded then [] else [.problem]

variable (texts : NumberTexts)

namespace Watch

/-- A new monitor. -/
def start (options : AnchorBalanceMonitorOptions) : Watch := ⟨.create options, [], []⟩

/-- A check is answered by the reader. -/
def read (watch : Watch) (reading : Except BalanceUnavailableError AnchorAccountBalance)
    (now : Date) : Watch :=
  let observed := watch.monitor.check texts reading now
  match observed.alert with
  | none =>
    { watch with
      monitor := observed.monitor
      history := watch.history ++ problemOf observed.status ++ [.resolved observed.status] }
  | some alert =>
    { monitor := observed.monitor
      sending := watch.sending ++ [⟨.check observed.status, alert⟩]
      history := watch.history ++ problemOf observed.status }

/-- A rejection is reported. -/
def report (watch : Watch) (detail : String) (now : Date) : Watch :=
  let reported := watch.monitor.reportUnderfundedRejection detail now
  { monitor := reported.1
    sending := watch.sending ++
      (reported.2.map fun alert => Sending.mk .reportUnderfundedRejection alert).toList
    history := watch.history ++ [.problem] }

/-- An alert is delivered, and the call that waited for it ends. -/
def deliver (watch : Watch) (sent : Sending) : Watch :=
  match sent.waiting with
  | .check status =>
    { watch with history := watch.history ++ [.settled sent.alert true, .resolved status] }
  | .reportUnderfundedRejection =>
    { watch with
      monitor := watch.monitor.reported
      history := watch.history ++ [.settled sent.alert true] }

/-- The delivery of an alert is refused, and the call that waited for it rejects. -/
def refuse (watch : Watch) (sent : Sending) : Watch :=
  { watch with history := watch.history ++ [.settled sent.alert false] }

/-- One event. -/
def step (watch : Watch) : WatchEvent → Option Watch
  | .read reading now => some (watch.read texts reading now)
  | .report detail now => some (watch.report detail now)
  | .settle i delivered => watch.sending[i]?.map fun sent =>
    let rest := { watch with sending := watch.sending.eraseIdx i }
    if delivered then rest.deliver sent else rest.refuse sent

end Watch

/-! ## What is asked of a history -/

/-- A check that resolved with a problem was preceded, since the last funded status, by a delivered
alert about a problem. -/
def Loud (history : List Happening) : Prop :=
  ∀ before status after, history = before ++ .resolved status :: after → status.isFunded = false →
    ∃ earlier alarm since, before = earlier ++ alarm :: since ∧ alarm.alarms = true ∧
      ∀ happening ∈ since, happening.funds = false

/-- Once a funded status has followed a delivered alert about a problem, the recovery is announced
exactly once up to the next problem. -/
def RecoveryAnnounced (history : List Happening) : Prop :=
  ∀ before alarm between status calm after,
    history = before ++ alarm :: between ++ .resolved status :: calm ++ after →
    alarm.alarms = true → (∀ happening ∈ between, happening.funds = false) →
    status.isFunded = true → (∀ happening ∈ calm, happening.isProblem = false) →
    (between ++ calm).countP Happening.recovers = 1

/-- The last delivery was refused. -/
def lastRefused (history : List Happening) : Prop :=
  (history.filterMap Happening.delivery).getLast? = some false

instance (history : List Happening) : Decidable (lastRefused history) :=
  inferInstanceAs (Decidable (_ = _))

/-- A call begins when no alert is on its way, and a check does not meet the kind of an alert whose
delivery was refused. -/
def Unrefused (watch : Watch) : WatchEvent → Prop
  | .read reading _ => watch.sending.length = 0 ∧
      (watch.monitor.lastAlertedKind = some (watch.monitor.kindFound reading) →
        ¬ lastRefused watch.history)
  | .report _ _ => watch.sending.length = 0
  | .settle _ _ => True

instance (watch : Watch) (event : WatchEvent) : Decidable (Unrefused watch event) := by
  cases event <;> unfold Unrefused <;> infer_instance

/-! ## Histories that grow -/

/-- An alert about a problem was delivered since the last funded status. -/
def alarmed (history : List Happening) : Bool :=
  latched Happening.alarms Happening.funds history

/-- No problem was found since the last funded status. -/
def calm (history : List Happening) : Bool :=
  latched Happening.funds Happening.isProblem history

/-- A check resolved with a status other than funded. -/
def Happening.concludesProblem : Happening → Bool
  | .resolved status => !status.isFunded
  | _ => false

/-- No recovery was announced since the last funded status. -/
def Unannounced (history : List Happening) : Prop :=
  ∀ before after, history = before ++ after → (∀ happening ∈ after, happening.funds = false) →
    after.countP Happening.recovers = 0

section

variable {history : List Happening} {happening : Happening}

theorem alarmed_concat : alarmed (history ++ [happening]) =
    (!happening.funds && (alarmed history || happening.alarms)) := latched_concat

theorem alarmed_concat_of_funded {status : AnchorFundingStatus} (h : status.isFunded = true) :
    alarmed (history ++ [.resolved status]) = false := by
  simp [alarmed_concat, Happening.funds, h]

theorem calm_concat : calm (history ++ [happening]) =
    (!happening.isProblem && (calm history || happening.funds)) := latched_concat

theorem lastRefused_concat_of_none (h : happening.delivery = none) :
    lastRefused (history ++ [happening]) ↔ lastRefused history := by
  simp [lastRefused, List.filterMap_append, h]

theorem lastRefused_concat_of_some {delivered : Bool} (h : happening.delivery = some delivered) :
    lastRefused (history ++ [happening]) ↔ delivered = false := by
  simp [lastRefused, List.filterMap_append, h]

theorem funds_of_alarms (h : happening.alarms = true) : happening.funds = false := by
  cases happening with
  | settled alert delivered => rfl
  | problem => rfl
  | resolved status => cases h

theorem isProblem_of_funds (h : happening.funds = true) : happening.isProblem = false := by
  cases happening with
  | problem => cases h
  | settled alert delivered => rfl
  | resolved status => rfl

theorem alarmed_of_split {before between : List Happening} {alarm : Happening}
    (h : history = before ++ alarm :: between) (halarm : alarm.alarms = true)
    (hbetween : ∀ happening ∈ between, happening.funds = false) : alarmed history = true := by
  refine latched_iff.mpr ⟨before, alarm, between, h, halarm, fun other hother => ?_⟩
  rcases List.mem_cons.mp hother with rfl | hother
  · exact funds_of_alarms halarm
  · exact hbetween other hother

theorem calm_of_split {before after : List Happening} {status : AnchorFundingStatus}
    (h : history = before ++ .resolved status :: after) (hstatus : status.isFunded = true)
    (hafter : ∀ happening ∈ after, happening.isProblem = false) : calm history = true := by
  refine latched_iff.mpr ⟨before, .resolved status, after, h, hstatus, fun other hother => ?_⟩
  rcases List.mem_cons.mp hother with rfl | hother
  · rfl
  · exact hafter other hother

/-- A problem concluded before any alarm is not loud. -/
theorem not_loud_of_silent (hsilent : history.any Happening.alarms = false)
    (hproblem : history.any Happening.concludesProblem = true) : ¬ Loud history := by
  intro hloud
  obtain ⟨happening, hmem, hconcludes⟩ := List.any_eq_true.mp hproblem
  obtain ⟨before, after, rfl⟩ := List.append_of_mem hmem
  cases happening with
  | resolved status =>
    obtain ⟨earlier, alarm, since, rfl, halarm, -⟩ :=
      hloud before status after rfl (by simpa [Happening.concludesProblem] using hconcludes)
    have hnone := List.any_eq_false.mp hsilent alarm (by simp)
    exact hnone halarm
  | problem => cases hconcludes
  | settled alert delivered => cases hconcludes

/-- A history stays loud when a status other than funded is preceded by an alarm. -/
theorem Loud.concat (h : Loud history)
    (hnew : ∀ status, happening = .resolved status → status.isFunded = false →
      alarmed history = true) : Loud (history ++ [happening]) := by
  intro before status after hsplit hstatus
  have hsplit' : history ++ [happening] = (before ++ [.resolved status]) ++ after := by
    simpa using hsplit
  rcases concat_eq_append hsplit' with ⟨rfl, hlast⟩ | ⟨rest, rfl, hrest⟩
  · obtain ⟨rfl, hsame⟩ := List.append_inj' hlast rfl
    cases hsame
    obtain ⟨earlier, alarm, since, hearlier, halarm, hsince⟩ :=
      latched_iff.mp (hnew status rfl hstatus)
    exact ⟨earlier, alarm, since, hearlier, halarm, fun other hother =>
      hsince other (List.mem_cons_of_mem _ hother)⟩
  · exact h before status rest (by simpa using hrest) hstatus

/-- What is asked about recoveries goes on holding when a funded status closes a stretch with one
announcement, and none is made while all is calm. -/
theorem RecoveryAnnounced.concat (h : RecoveryAnnounced history)
    (hfunded : ∀ status before alarm between, happening = .resolved status →
      status.isFunded = true → history = before ++ alarm :: between → alarm.alarms = true →
      (∀ happening ∈ between, happening.funds = false) →
      between.countP Happening.recovers = 1)
    (hcalm : calm history = true → happening.recovers = false) :
    RecoveryAnnounced (history ++ [happening]) := by
  intro before alarm between status quiet after hsplit halarm hbetween hstatus hquiet
  rcases concat_eq_append hsplit with ⟨rfl, hlast⟩ | ⟨rest, rfl, hrest⟩
  · have hlast' : history ++ [happening] =
        (before ++ alarm :: between ++ [.resolved status]) ++ quiet := by simpa using hlast.symm
    rcases concat_eq_append hlast' with ⟨rfl, hend⟩ | ⟨rest, rfl, hrest⟩
    · obtain ⟨hhistory, hsame⟩ := List.append_inj' hend rfl
      cases hsame
      rw [List.append_nil]
      exact hfunded status before alarm between rfl hstatus hhistory.symm halarm hbetween
    · have hrest' : history = before ++ alarm :: between ++ .resolved status :: rest ++ [] := by
        simpa using hrest
      have hrestQuiet : ∀ other ∈ rest, other.isProblem = false :=
        fun other hother => hquiet other (List.mem_append_left _ hother)
      have honce := h before alarm between status rest [] hrest' halarm hbetween hstatus hrestQuiet
      have hbefore : history = (before ++ alarm :: between) ++ .resolved status :: rest := by
        simpa using hrest
      have hsettled : calm history = true := calm_of_split hbefore hstatus hrestQuiet
      rw [← List.append_assoc, List.countP_append, honce, List.countP_singleton,
        hcalm hsettled]
      rfl
  · exact h before alarm between status quiet rest hrest halarm hbetween hstatus hquiet

theorem Unannounced.concat (h : Unannounced history) (hnew : happening.recovers = false) :
    Unannounced (history ++ [happening]) := by
  intro before after hsplit hafter
  rcases concat_eq_append hsplit with ⟨rfl, -⟩ | ⟨rest, rfl, hrest⟩
  · rfl
  · have hnone := h before rest hrest fun other hother =>
      hafter other (List.mem_append_left _ hother)
    rw [List.countP_append, hnone, List.countP_singleton, hnew]
    rfl

/-- A funded status closes what was announced before it. -/
theorem unannounced_concat_of_funds (hnew : happening.funds = true) :
    Unannounced (history ++ [happening]) := by
  intro before after hsplit hafter
  rcases concat_eq_append hsplit with ⟨rfl, -⟩ | ⟨rest, rfl, -⟩
  · rfl
  · have hnone := hafter happening (List.mem_append_right _ (List.mem_singleton.mpr rfl))
    rw [hnew] at hnone
    cases hnone

/-- What is asked of a history, and that nothing announced is left open. -/
structure Sound (history : List Happening) : Prop where
  unannounced : Unannounced history
  loud : Loud history
  announced : RecoveryAnnounced history

theorem sound_nil : Sound [] where
  unannounced := by
    intro before after h _
    rw [(List.append_eq_nil_iff.mp h.symm).2]
    rfl
  loud := by
    intro before status after h
    exact absurd h.symm (by simp)
  announced := by
    intro before alarm between status quiet after h
    exact absurd h.symm (by simp)

namespace Sound

/-- Whatever is neither a status nor an announcement may be noted. -/
theorem note (h : Sound history) (hstatus : ∀ status, happening ≠ .resolved status)
    (hrecovers : happening.recovers = false) : Sound (history ++ [happening]) where
  unannounced := h.unannounced.concat hrecovers
  loud := h.loud.concat fun status hsame => absurd hsame (hstatus status)
  announced := h.announced.concat
    (fun status _ _ _ hsame => absurd hsame (hstatus status)) fun _ => hrecovers

/-- A problem may be concluded once an alert about one has been delivered. -/
theorem concludeProblem (h : Sound history) {status : AnchorFundingStatus}
    (hstatus : status.isFunded = false) (halarmed : alarmed history = true) :
    Sound (history ++ [.resolved status]) where
  unannounced := h.unannounced.concat rfl
  loud := h.loud.concat fun _ _ _ => halarmed
  announced := h.announced.concat
    (fun status' _ _ _ hsame hfunded => by
      cases hsame
      rw [hstatus] at hfunded
      cases hfunded)
    fun _ => rfl

/-- A funded account may be concluded in silence when no alert has been delivered. -/
theorem concludeFunded (h : Sound history) {status : AnchorFundingStatus}
    (hstatus : status.isFunded = true) (halarmed : alarmed history = false) :
    Sound (history ++ [.resolved status]) where
  unannounced := unannounced_concat_of_funds hstatus
  loud := h.loud.concat fun status' hsame hproblem => by
    cases hsame
    rw [hstatus] at hproblem
    cases hproblem
  announced := h.announced.concat
    (fun _ _ _ _ _ _ hsplit halarm hbetween => by
      rw [alarmed_of_split hsplit halarm hbetween] at halarmed
      cases halarmed)
    fun _ => rfl

/-- A recovery may be announced and concluded when a problem was found since the last one. -/
theorem announce (h : Sound history) {alert : AnchorFundingAlert} {status : AnchorFundingStatus}
    (hkind : alert.kind = .recovered) (hstatus : status.isFunded = true)
    (hcalm : calm history = false) :
    Sound (history ++ [.settled alert true] ++ [.resolved status]) where
  unannounced := unannounced_concat_of_funds hstatus
  loud := by
    refine (h.loud.concat fun _ hsame => by cases hsame).concat fun status' hsame hproblem => ?_
    cases hsame
    rw [hstatus] at hproblem
    cases hproblem
  announced := by
    have hnoted : RecoveryAnnounced (history ++ [.settled alert true]) := by
      refine h.announced.concat (fun _ _ _ _ hsame => by cases hsame) fun hquiet => ?_
      rw [hcalm] at hquiet
      cases hquiet
    refine hnoted.concat (fun status' before alarm between _ _ hsplit halarm hbetween => ?_)
      fun _ => rfl
    have hsplit' : history ++ [.settled alert true] = (before ++ [alarm]) ++ between := by
      simpa using hsplit
    rcases concat_eq_append hsplit' with ⟨rfl, hlast⟩ | ⟨rest, rfl, hrest⟩
    · -- the announcement itself is no alarm
      obtain ⟨-, hsame⟩ := List.append_inj' hlast rfl
      cases hsame
      simp [Happening.alarms, hkind] at halarm
    · have hnone := h.unannounced _ rest hrest fun other hother =>
        hbetween other (List.mem_append_left _ hother)
      simp [hnone, Happening.recovers, hkind]

end Sound

end

/-! ## What a run keeps -/

/-- An alert on its way is the one raised last, and announces a recovery exactly when the check
that waits for it found a funded account. -/
structure Sending.Current (monitor : AnchorBalanceMonitor) (sent : Sending) : Prop where
  lastAlerted : monitor.lastAlertedKind = some sent.alert.kind
  ofCheck : ∀ status, sent.waiting = .check status →
    (status.isFunded = true ↔ sent.alert.kind = .recovered)
  ofReport : sent.waiting = .reportUnderfundedRejection → sent.alert.kind ≠ .recovered

/-- What holds while no alert is on its way: the kind alerted last tells what was delivered. -/
structure Told (monitor : AnchorBalanceMonitor) (history : List Happening) : Prop where
  alarmed : ∀ kind, monitor.lastAlertedKind = some kind → kind ≠ .recovered →
    ¬ lastRefused history → alarmed history = true
  kept : StellarAnchor.alarmed history = true → monitor.lastAlertedKind ≠ none ∧
    (monitor.lastAlertedKind = some .recovered → lastRefused history)
  calm : calm history = true →
    monitor.lastAlertedKind = none ∨ monitor.lastAlertedKind = some .recovered

/-- What holds of the alerts on their way. -/
def Underway (monitor : AnchorBalanceMonitor) (history : List Happening) : List Sending → Prop
  | [] => Told monitor history
  | [sent] => sent.Current monitor ∧ calm history = false
  | _ => False

/-- The invariant of the runs that meet the condition. -/
structure Attentive (watch : Watch) : Prop where
  underway : Underway watch.monitor watch.history watch.sending
  sound : Sound watch.history

theorem attentive_start (options : AnchorBalanceMonitorOptions) :
    Attentive (Watch.start options) where
  underway := ⟨nofun, nofun, nofun⟩
  sound := sound_nil

section

/-- After a delivered alert about a problem the alarm is raised. -/
theorem told_of_alarm {monitor : AnchorBalanceMonitor} {history : List Happening}
    {kind : AnchorFundingAlertKind} (hlast : monitor.lastAlertedKind = some kind)
    (hkind : kind ≠ .recovered) (halarmed : alarmed history = true) (hcalm : calm history = false) :
    Told monitor history := by
  refine ⟨fun _ _ _ _ => halarmed, fun _ => ?_, fun hquiet => ?_⟩
  · rw [hlast]
    exact ⟨by simp, fun hrecovered => absurd (Option.some.inj hrecovered) hkind⟩
  · rw [hcalm] at hquiet
    cases hquiet

/-- A check concludes that there is a problem when the alarm is raised. -/
theorem Attentive.concludeProblem {monitor : AnchorBalanceMonitor} {history : List Happening}
    {kind : AnchorFundingAlertKind} {status : AnchorFundingStatus}
    (hlast : monitor.lastAlertedKind = some kind) (hkind : kind ≠ .recovered)
    (halarmed : alarmed history = true) (hcalm : calm history = false) (hsound : Sound history)
    (hstatus : status.isFunded = false) :
    Attentive ⟨monitor, [], history ++ [.resolved status]⟩ := by
  refine ⟨told_of_alarm hlast hkind ?_ ?_, hsound.concludeProblem hstatus halarmed⟩
  · rw [alarmed_concat, halarmed]
    simp [Happening.funds, hstatus]
  · rw [calm_concat, hcalm]
    simp [Happening.funds, hstatus]

/-- A check that ends in silence has nothing to say. -/
theorem Attentive.readSilent {monitor : AnchorBalanceMonitor} {history : List Happening}
    {reading : Except BalanceUnavailableError AnchorAccountBalance} {now : Date}
    (htold : Told monitor history) (hsound : Sound history)
    (hheard : monitor.lastAlertedKind = some (monitor.kindFound reading) → ¬ lastRefused history)
    (h : (monitor.check texts reading now).alert = none) :
    Attentive
      ⟨(monitor.check texts reading now).monitor, [],
        history ++ problemOf (monitor.check texts reading now).status ++
          [.resolved (monitor.check texts reading now).status]⟩ := by
  obtain ⟨hafter, hlast⟩ := AnchorBalanceMonitor.check_silent texts h
  have hfound := monitor.isFunded_check texts reading now
  generalize (monitor.check texts reading now).status = status at hfound ⊢
  cases hstatus : status.isFunded with
  | true =>
    have hrecovered : monitor.kindFound reading = .recovered := hfound.mp hstatus
    rw [hrecovered] at hlast hheard
    have hlast' : monitor.lastAlertedKind = none ∨ monitor.lastAlertedKind = some .recovered :=
      hlast.symm.imp_left And.right
    have hquiet : alarmed history = false := by
      rw [← Bool.not_eq_true]
      intro halarmed
      obtain ⟨hsome, hrefused⟩ := htold.kept halarmed
      rcases hlast' with hnone | hsame
      · exact hsome hnone
      · exact hheard hsame (hrefused hsame)
    rw [problemOf, if_pos hstatus, List.append_nil]
    refine ⟨⟨fun kind hkind hother => ?_, fun halarmed => ?_, fun _ => ?_⟩,
      hsound.concludeFunded hstatus hquiet⟩
    · rw [hafter] at hkind
      rcases hlast' with hnone | hsame
      · rw [hnone] at hkind
        cases hkind
      · rw [hsame] at hkind
        cases hkind
        exact absurd rfl hother
    · rw [alarmed_concat_of_funded hstatus] at halarmed
      cases halarmed
    · rw [hafter]
      exact hlast'
  | false =>
    have hproblem : monitor.kindFound reading ≠ .recovered := fun hrecovered => by
      rw [hfound.mpr hrecovered] at hstatus
      cases hstatus
    have hsame : monitor.lastAlertedKind = some (monitor.kindFound reading) :=
      hlast.resolve_right fun hnone => hproblem hnone.1
    have halarmed : alarmed history = true := htold.alarmed _ hsame hproblem (hheard hsame)
    have hnoted : alarmed (history ++ [.problem]) = true := by
      rw [alarmed_concat, halarmed]
      rfl
    have hfoundProblem : calm (history ++ [.problem]) = false := by
      rw [calm_concat]
      rfl
    rw [problemOf, if_neg (by simp [hstatus])]
    exact concludeProblem (hafter.trans hsame) hproblem hnoted hfoundProblem
      (hsound.note (by simp) rfl) hstatus

/-- A check that raises an alert has found something new. -/
theorem Attentive.readAlerting {monitor : AnchorBalanceMonitor} {history : List Happening}
    {reading : Except BalanceUnavailableError AnchorAccountBalance} {now : Date}
    {alert : AnchorFundingAlert} (htold : Told monitor history) (hsound : Sound history)
    (h : (monitor.check texts reading now).alert = some alert) :
    Attentive
      ⟨(monitor.check texts reading now).monitor,
        [⟨.check (monitor.check texts reading now).status, alert⟩],
        history ++ problemOf (monitor.check texts reading now).status⟩ := by
  obtain ⟨hkind, hafter, hbefore, hrecovery⟩ := AnchorBalanceMonitor.check_alerting texts h
  have hfound := monitor.isFunded_check texts reading now
  generalize (monitor.check texts reading now).status = status at hfound ⊢
  have hcurrent : Sending.Current (monitor.check texts reading now).monitor
      ⟨.check status, alert⟩ := by
    refine ⟨hafter, fun status' hsame => ?_, fun hreport => by cases hreport⟩
    cases hsame
    rw [hfound, hkind]
  cases hstatus : status.isFunded with
  | true =>
    have hrecovered : alert.kind = .recovered := hkind.trans (hfound.mp hstatus)
    have hcalm : calm history = false := by
      rw [← Bool.not_eq_true]
      intro hcalm
      rw [hrecovered] at hbefore
      exact (htold.calm hcalm).elim (hrecovery hrecovered) hbefore
    rw [problemOf, if_pos hstatus, List.append_nil]
    exact ⟨⟨hcurrent, hcalm⟩, hsound⟩
  | false =>
    rw [problemOf, if_neg (by simp [hstatus])]
    refine ⟨⟨hcurrent, ?_⟩, hsound.note (by simp) rfl⟩
    rw [calm_concat]
    rfl

/-- A reported rejection is a problem, and its alert is on its way. -/
theorem Attentive.report {monitor : AnchorBalanceMonitor} {history : List Happening}
    (hsound : Sound history) (detail : String) (now : Date) :
    Attentive (Watch.report ⟨monitor, [], history⟩ detail now) := by
  obtain ⟨alert, halert, hkind, hafter⟩ := monitor.exists_alert_of_report detail now
  unfold Watch.report
  simp only [halert, Option.map_some, Option.toList_some, List.nil_append]
  have hcurrent : Sending.Current (monitor.reportUnderfundedRejection detail now).1
      ⟨.reportUnderfundedRejection, alert⟩ := by
    refine ⟨by rw [hafter, hkind], fun status hsame => (by cases hsame), fun _ => ?_⟩
    rw [hkind]
    decide
  refine ⟨⟨hcurrent, ?_⟩, hsound.note (by simp) rfl⟩
  rw [calm_concat]
  rfl

/-- A refused alert is remembered as refused. -/
theorem Attentive.refuse {monitor : AnchorBalanceMonitor} {history : List Happening}
    {sent : Sending} (hcurrent : sent.Current monitor) (hcalm : calm history = false)
    (hsound : Sound history) : Attentive (Watch.refuse ⟨monitor, [], history⟩ sent) := by
  have hrefused : lastRefused (history ++ [.settled sent.alert false]) :=
    (lastRefused_concat_of_some rfl).mpr rfl
  have htold : Told monitor (history ++ [.settled sent.alert false]) := by
    refine ⟨fun _ _ _ hheard => absurd hrefused hheard, fun _ => ?_, fun hquiet => ?_⟩
    · rw [hcurrent.lastAlerted]
      exact ⟨by simp, fun _ => hrefused⟩
    · simp [calm_concat, hcalm, Happening.funds] at hquiet
  exact ⟨htold, hsound.note (by simp) rfl⟩

/-- A delivered alert is an alarm, or announces the recovery. -/
theorem Attentive.deliver {monitor : AnchorBalanceMonitor} {history : List Happening}
    {sent : Sending} (hcurrent : sent.Current monitor) (hcalm : calm history = false)
    (hsound : Sound history) : Attentive (Watch.deliver ⟨monitor, [], history⟩ sent) := by
  have halarm : sent.alert.kind ≠ .recovered →
      alarmed (history ++ [.settled sent.alert true]) = true := fun hkind => by
    simp [alarmed_concat, Happening.funds, Happening.alarms, hkind]
  have hstill : calm (history ++ [.settled sent.alert true]) = false := by
    simp [calm_concat, Happening.funds, hcalm]
  have hnoted : sent.alert.kind ≠ .recovered → Sound (history ++ [.settled sent.alert true]) :=
    fun hkind => hsound.note (by simp) (by simp [Happening.recovers, hkind])
  obtain ⟨waiting, alert⟩ := sent
  cases waiting with
  | reportUnderfundedRejection =>
    have hkind := hcurrent.ofReport rfl
    exact ⟨told_of_alarm rfl (by decide) (halarm hkind) hstill, hnoted hkind⟩
  | check status =>
    have hfound := hcurrent.ofCheck status rfl
    unfold Watch.deliver
    dsimp only at hfound halarm hstill hnoted ⊢
    rw [show history ++ [.settled alert true, .resolved status] =
      history ++ [.settled alert true] ++ [.resolved status] by simp]
    cases hstatus : status.isFunded with
    | true =>
      have hkind : alert.kind = .recovered := hfound.mp hstatus
      have hlast : monitor.lastAlertedKind = some .recovered := by
        rw [hcurrent.lastAlerted, hkind]
      refine ⟨⟨fun kind hsame hother => ?_, fun halarmed => ?_, fun _ => .inr hlast⟩,
        hsound.announce hkind hstatus hcalm⟩
      · rw [hlast] at hsame
        exact absurd (Option.some.inj hsame).symm hother
      · rw [alarmed_concat_of_funded hstatus] at halarmed
        cases halarmed
    | false =>
      have hkind : alert.kind ≠ .recovered := fun hrecovered => by
        rw [hfound.mpr hrecovered] at hstatus
        cases hstatus
      exact concludeProblem hcurrent.lastAlerted hkind (halarm hkind) hstill (hnoted hkind) hstatus

end

/-- Every event that meets the condition keeps the invariant. -/
theorem Attentive.step {watch next : Watch} {event : WatchEvent} (h : Attentive watch)
    (hunrefused : Unrefused watch event) (hstep : watch.step texts event = some next) :
    Attentive next := by
  obtain ⟨monitor, sending, history⟩ := watch
  obtain ⟨hunderway, hsound⟩ := h
  cases event with
  | read reading now =>
    obtain ⟨hnone, hheard⟩ := hunrefused
    obtain rfl : sending = [] := List.length_eq_zero_iff.mp hnone
    cases hstep
    unfold Watch.read
    cases halert : (monitor.check texts reading now).alert with
    | none => simpa [halert] using Attentive.readSilent texts hunderway hsound hheard halert
    | some alert => simpa [halert] using Attentive.readAlerting texts hunderway hsound halert
  | report detail now =>
    obtain rfl : sending = [] := List.length_eq_zero_iff.mp hunrefused
    cases hstep
    exact Attentive.report hsound detail now
  | settle i delivered =>
    cases sending with
    | nil => cases hstep
    | cons sent rest =>
      cases rest with
      | cons other rest => exact absurd hunderway id
      | nil =>
        obtain ⟨hcurrent, hcalm⟩ := hunderway
        cases i with
        | succ i => cases hstep
        | zero =>
          cases delivered with
          | true =>
            cases hstep
            exact Attentive.deliver hcurrent hcalm hsound
          | false =>
            cases hstep
            exact Attentive.refuse hcurrent hcalm hsound

/-! ## Runs of one account -/

/-- A reading of `stroops` at the beginning of time. -/
def sampleReading (stroops : ℚ) : Except BalanceUnavailableError AnchorAccountBalance :=
  .ok ⟨"GANCHOR", "stellar:testnet", .finite stroops, default⟩

/-- A monitor with the default options. -/
def sampleStart : Watch := Watch.start ⟨"GANCHOR", none, none⟩

/-- Numbers that are not written. -/
def sampleTexts : NumberTexts := ⟨fun _ => "", fun _ => ""⟩

/-- The account runs low and is topped up, and both alerts are delivered. -/
def toppedUp : List WatchEvent :=
  [.read (sampleReading 5000000) default, .settle 0 true,
    .read (sampleReading 500000000) default, .settle 0 true]

/-- The account runs low, the alert is refused, and the next check finds the same. -/
def refusedOnce : List WatchEvent :=
  [.read (sampleReading 5000000) default, .settle 0 false,
    .read (sampleReading 5000000) default]

/-- Where that leads. -/
def afterRefusal : Watch :=
  (exec (Watch.step sampleTexts) sampleStart refusedOnce).get (by decide +kernel)

/-! ## The monitor is loud -/

/-- In every run of calls that begin when no alert is on its way, and of checks that never meet the
kind of an alert whose delivery was refused, no problem goes unsaid and each recovery is announced
once. -/
theorem loud_unless_refused (texts : NumberTexts) (options : AnchorBalanceMonitorOptions)
    {watch : Watch}
    (hrun : RunWhile (Watch.step texts) Unrefused (Watch.start options) watch) :
    Loud watch.history ∧ RecoveryAnnounced watch.history := by
  have hattentive : Attentive watch :=
    hrun.invariant (attentive_start options) fun _ _ _ h hunrefused hstep =>
      h.step texts hunrefused hstep
  exact ⟨hattentive.sound.loud, hattentive.sound.announced⟩

/-- The run that tops the account up is one of these. -/
theorem loud_unless_refused_sample :
    ∃ watch, execWhile (Watch.step sampleTexts) Unrefused sampleStart toppedUp = some watch ∧
      Loud watch.history ∧ RecoveryAnnounced watch.history := by
  have hsome :
      (execWhile (Watch.step sampleTexts) Unrefused sampleStart toppedUp).isSome = true := by
    decide +kernel
  obtain ⟨watch, hwatch⟩ := Option.isSome_iff_exists.mp hsome
  exact ⟨watch, hwatch, loud_unless_refused sampleTexts _ (runWhile_of_execWhile hwatch)⟩

/-- After a refused alert the next check of the same condition resolves with nothing said. -/
theorem not_loud_after_refusal :
    ¬ ∀ (texts : NumberTexts) (options : AnchorBalanceMonitorOptions) (watch : Watch),
      Run (Watch.step texts) (Watch.start options) watch →
        Loud watch.history ∧ RecoveryAnnounced watch.history := by
  intro h
  have hsilent : afterRefusal.history.any Happening.alarms = false := by decide +kernel
  have hproblem : afterRefusal.history.any Happening.concludesProblem = true := by decide +kernel
  exact not_loud_of_silent hsilent hproblem (h sampleTexts _ _ (runWhile_get _)).1

end Verixa.StellarAnchor
