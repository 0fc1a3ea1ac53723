import Verixa.StellarAnchor.FundingAlerts

/-!
# The funding guard

`beforeAnchor` is asked before an anchoring transaction is submitted, in any run of checks, reported
rejections and deliveries of alerts.  The account can pay when the balance read covers the fee and
no rejection stands, that is, none was reported since the last reading at the threshold or above.

The guard also refuses a balance that covers the fee and is below the alert threshold, and rejects
when the alerter does.  `guards_iff` says when it refuses just the account that cannot pay.
-/

namespace Verixa.StellarAnchor

open Collections Concurrency

/-! ## Rejections that stand -/

/-- A rejection by the ledger is reported. -/
def WatchEvent.isRejection : WatchEvent → Bool
  | .report _ _ => true
  | _ => false

/-- A balance at the threshold or above is read. -/
def WatchEvent.readsAtLeast (threshold : Number) : WatchEvent → Bool
  | .read (.ok balance) _ => threshold.le balance.availableStroops
  | _ => false

/-- A rejection was reported since the last reading at the threshold or above. -/
def rejectionStands (threshold : Number) (events : List WatchEvent) : Bool :=
  latched WatchEvent.isRejection (WatchEvent.readsAtLeast threshold) events

/-- The monitor has its configuration, and remembers whether a rejection stands. -/
structure Remembers (configured monitor : AnchorBalanceMonitor) (events : List WatchEvent) :
    Prop where
  thresholdStroops : monitor.thresholdStroops = configured.thresholdStroops
  feeStroops : monitor.feeStroops = configured.feeStroops
  reportedUnderfunded : monitor.reportedUnderfunded =
    rejectionStands configured.thresholdStroops events

section Run

variable {texts : NumberTexts} {configured monitor : AnchorBalanceMonitor}
  {events : List WatchEvent}

/-- Raising an alert notes its kind and leaves the rest alone. -/
theorem Remembers.raise (h : Remembers configured monitor events)
    (status : Option AnchorFundingStatus) (kind : AnchorFundingAlertKind) (message : String)
    (force : Bool) (now : Date) :
    Remembers configured (monitor.raise status kind message force now).1 events := by
  unfold AnchorBalanceMonitor.raise
  split
  · exact h
  · exact ⟨h.thresholdStroops, h.feeStroops, h.reportedUnderfunded⟩

theorem Remembers.raiseForBalance (h : Remembers configured monitor events)
    (balance : AnchorAccountBalance) (kind : FundingKind) (now : Date) :
    Remembers configured (monitor.raiseForBalance texts balance kind now).1 events := by
  unfold AnchorBalanceMonitor.raiseForBalance
  cases kind with
  | funded =>
    dsimp only
    split
    · exact h.raise ..
    · exact h
  | belowThreshold => exact h.raise ..
  | unfundable => exact h.raise ..

/-- A reading at the threshold or above retires the rejection. -/
theorem Remembers.retire (h : Remembers configured monitor events)
    (balance : AnchorAccountBalance) (now : Date) :
    Remembers configured (monitor.retire balance) (events ++ [.read (.ok balance) now]) := by
  have hstands : rejectionStands configured.thresholdStroops (events ++ [.read (.ok balance) now]) =
      (!configured.thresholdStroops.le balance.availableStroops &&
        rejectionStands configured.thresholdStroops events) := by
    rw [rejectionStands, latched_concat]
    simp [WatchEvent.isRejection, WatchEvent.readsAtLeast, rejectionStands]
  rw [← h.thresholdStroops] at hstands
  unfold AnchorBalanceMonitor.retire
  split
  · rename_i hle
    refine ⟨h.thresholdStroops, h.feeStroops, ?_⟩
    rw [← h.thresholdStroops, hstands, hle]
    rfl
  · rename_i hlt
    refine ⟨h.thresholdStroops, h.feeStroops, ?_⟩
    rw [← h.thresholdStroops, hstands, Bool.eq_false_of_not_eq_true hlt, h.thresholdStroops,
      ← h.reportedUnderfunded]
    rfl

theorem rejectionStands_concat_of_neither {threshold : Number} {event : WatchEvent}
    (hrejection : event.isRejection = false) (hreads : event.readsAtLeast threshold = false) :
    rejectionStands threshold (events ++ [event]) = rejectionStands threshold events := by
  rw [rejectionStands, latched_concat, hrejection, hreads, Bool.or_false]
  rfl

/-- A check goes on remembering. -/
theorem Remembers.check (h : Remembers configured monitor events)
    (reading : Except BalanceUnavailableError AnchorAccountBalance) (now : Date) :
    Remembers configured (monitor.check texts reading now).monitor
      (events ++ [.read reading now]) := by
  cases reading with
  | error error =>
    have hnoted : Remembers configured
        { monitor with lastStatus := some (.unknown error) }
        (events ++ [.read (.error error) now]) :=
      ⟨h.thresholdStroops, h.feeStroops, by
        rw [rejectionStands_concat_of_neither rfl rfl]
        exact h.reportedUnderfunded⟩
    exact hnoted.raise ..
  | ok balance =>
    have hretired := h.retire balance now
    have hnoted : Remembers configured
        { monitor.retire balance with
          lastStatus := some (.known ((monitor.retire balance).classify balance) balance) }
        (events ++ [.read (.ok balance) now]) :=
      ⟨hretired.thresholdStroops, hretired.feeStroops, hretired.reportedUnderfunded⟩
    exact hnoted.raiseForBalance ..

/-- A reported rejection stands. -/
theorem Remembers.report (h : Remembers configured monitor events) (detail : String) (now : Date) :
    Remembers configured (monitor.reportUnderfundedRejection detail now).1
      (events ++ [.report detail now]) := by
  have hreported : Remembers configured { monitor with reportedUnderfunded := true }
      (events ++ [.report detail now]) := by
    refine ⟨h.thresholdStroops, h.feeStroops, ?_⟩
    rw [rejectionStands, latched_concat]
    simp [WatchEvent.isRejection, WatchEvent.readsAtLeast]
  exact hreported.raise ..

/-- Every event goes on being remembered. -/
theorem Remembers.step {watch next : Watch} {event : WatchEvent}
    (h : Remembers configured watch.monitor events) (hstep : watch.step texts event = some next) :
    Remembers configured next.monitor (events ++ [event]) := by
  cases event with
  | read reading now =>
    obtain rfl := Option.some.inj hstep
    have hmonitor : (watch.read texts reading now).monitor =
        (watch.monitor.check texts reading now).monitor := by
      unfold Watch.read
      dsimp only
      split <;> rfl
    rw [hmonitor]
    exact h.check reading now
  | report detail now =>
    obtain rfl := Option.some.inj hstep
    exact h.report detail now
  | settle i delivered =>
    obtain ⟨sent, -, rfl⟩ := Option.map_eq_some_iff.mp hstep
    have hsame : Remembers configured watch.monitor (events ++ [.settle i delivered]) :=
      ⟨h.thresholdStroops, h.feeStroops, by
        rw [rejectionStands_concat_of_neither rfl rfl, h.reportedUnderfunded]⟩
    cases delivered with
    | false => exact hsame
    | true =>
      simp only [if_true, Watch.deliver]
      cases sent.waiting with
      | check status => exact hsame
      | reportUnderfundedRejection =>
        exact ⟨hsame.thresholdStroops, hsame.feeStroops, hsame.reportedUnderfunded⟩

/-- So does a run. -/
theorem Remembers.run {watch next : Watch} {more : List WatchEvent}
    (h : Remembers configured watch.monitor events)
    (hrun : exec (Watch.step texts) watch more = some next) :
    Remembers configured next.monitor (events ++ more) := by
  induction more generalizing watch events with
  | nil =>
    obtain rfl := Option.some.inj hrun
    rwa [List.append_nil]
  | cons event more ih =>
    rw [exec, execWhile, if_pos trivial] at hrun
    obtain ⟨middle, hstep, hrest⟩ := Option.bind_eq_some_iff.mp hrun
    have hnext := ih (h.step hstep) hrest
    rwa [List.append_assoc] at hnext

end Run

/-! ## The answer of the guard -/

/-- What `beforeAnchor` settles with: its answer, or nothing where it rejects with the alerter. -/
def guardAnswer (texts : NumberTexts) (monitor : AnchorBalanceMonitor)
    (reading : Except BalanceUnavailableError AnchorAccountBalance) (now : Date)
    (delivered : Bool) : Option (Except String Unit) :=
  let observed := monitor.check texts reading now
  if observed.alert.isNone || delivered then
    some (observed.monitor.beforeAnchor texts observed.status)
  else none

/-- A check of the reading raises an alert: of another kind than the last one, and no recovery
before any alert. -/
def Alerts (monitor : AnchorBalanceMonitor)
    (reading : Except BalanceUnavailableError AnchorAccountBalance) : Prop :=
  monitor.lastAlertedKind ≠ some (monitor.kindFound reading) ∧
    (monitor.kindFound reading = .recovered → monitor.lastAlertedKind ≠ none)

/-- The guard lets pass just the account that can pay, and otherwise returns an error. -/
def Guards (configured : AnchorBalanceMonitor) (events : List WatchEvent)
    (reading : Except BalanceUnavailableError AnchorAccountBalance) (now : Date)
    (answer : Option (Except String Unit)) : Prop :=
  (answer = some (.ok ()) ↔ ∃ balance, reading = .ok balance ∧
      configured.feeStroops.le balance.availableStroops = true ∧
      rejectionStands configured.thresholdStroops (events ++ [.read reading now]) = false) ∧
    (answer = some (.ok ()) ∨ ∃ message, answer = some (.error message))

section Answer

variable {texts : NumberTexts} {monitor : AnchorBalanceMonitor}
  {reading : Except BalanceUnavailableError AnchorAccountBalance} {now : Date}

/-- When a check raises an alert. -/
theorem isNone_alert_iff :
    (monitor.check texts reading now).alert.isNone = true ↔ ¬ Alerts monitor reading := by
  constructor
  · intro hnone ⟨hother, hrecovery⟩
    rcases (AnchorBalanceMonitor.check_silent texts (Option.isNone_iff_eq_none.mp hnone)).2 with
      hlast | ⟨hfound, hlast⟩
    · exact hother hlast
    · exact hrecovery hfound hlast
  · intro hquiet
    by_contra hsome
    obtain ⟨alert, halert⟩ := Option.ne_none_iff_exists'.mp
      fun hnone => hsome (Option.isNone_iff_eq_none.mpr hnone)
    obtain ⟨hkind, -, hother, hrecovery⟩ := AnchorBalanceMonitor.check_alerting texts halert
    rw [hkind] at hother hrecovery
    exact hquiet ⟨hother, hrecovery⟩

/-- The guard lets a balance pass that is found to be funded. -/
theorem beforeAnchor_check_eq_ok_iff {configured : AnchorBalanceMonitor}
    {events : List WatchEvent} (h : Remembers configured monitor events) :
    (monitor.check texts reading now).monitor.beforeAnchor texts
        (monitor.check texts reading now).status = .ok () ↔
      ∃ balance, reading = .ok balance ∧
        rejectionStands configured.thresholdStroops (events ++ [.read reading now]) = false ∧
        balance.availableStroops.lt configured.feeStroops = false ∧
        balance.availableStroops.lt configured.thresholdStroops = false := by
  rw [AnchorBalanceMonitor.beforeAnchor_eq_ok_iff, AnchorBalanceMonitor.isFunded_check]
  cases reading with
  | error error => simp [AnchorBalanceMonitor.kindFound]
  | ok balance =>
    have hretired := h.retire balance now
    rw [AnchorBalanceMonitor.kindFound, AnchorBalanceMonitor.alertKindOf_eq_recovered_iff,
      AnchorBalanceMonitor.classify, hretired.reportedUnderfunded, hretired.feeStroops,
      hretired.thresholdStroops]
    constructor
    · intro hfunded
      refine ⟨balance, rfl, ?_⟩
      split at hfunded
      · cases hfunded
      · rename_i hpayable
        split at hfunded
        · cases hfunded
        · rename_i habove
          rw [Bool.or_eq_true, not_or] at hpayable
          exact ⟨Bool.eq_false_of_not_eq_true hpayable.1, Bool.eq_false_of_not_eq_true hpayable.2,
            Bool.eq_false_of_not_eq_true habove⟩
    · rintro ⟨other, hother, hstands, hfee, hthreshold⟩
      obtain rfl := Except.ok.inj hother
      rw [hstands, hfee, hthreshold]
      rfl

/-- A number below another is not at least the other. -/
theorem le_eq_false_of_lt {a b : Number} (h : a.lt b = true) : b.le a = false := by
  cases a <;> cases b <;> simp_all [Number.lt, Number.le, Number.strictEq]
  rename_i a b
  exact ⟨h.le, h.ne'⟩

/-- What the code asks of a balance and what it is to ask come to the same where a rejection stands,
where the balance is too low for the fee, or where the threshold asks for as much as the fee. -/
theorem pays_iff : ∀ {stands low enough below : Bool}, (low = true → enough = false) →
    ((stands = false ∧ low = false ∧ below = false ↔ enough = true ∧ stands = false) ↔
      stands = true ∨ low = true ∨ (enough = true ↔ below = false)) := by
  decide

end Answer

/-- After any run the guard lets pass just the account that can pay, if its alert is delivered, and
if a balance read is below the fee, or not below the threshold, or meets a rejection that stands. -/
theorem guards_iff (texts : NumberTexts) (options : AnchorBalanceMonitorOptions)
    {events : List WatchEvent} {watch : Watch}
    (hrun : exec (Watch.step texts) (Watch.start options) events = some watch)
    (reading : Except BalanceUnavailableError AnchorAccountBalance) (now : Date)
    (delivered : Bool) :
    Guards (.create options) events reading now
        (guardAnswer texts watch.monitor reading now delivered) ↔
      (Alerts watch.monitor reading → delivered = true) ∧
        ∀ balance, reading = .ok balance →
          rejectionStands (AnchorBalanceMonitor.create options).thresholdStroops
              (events ++ [.read reading now]) = true ∨
            balance.availableStroops.lt (AnchorBalanceMonitor.create options).feeStroops = true ∨
            ((AnchorBalanceMonitor.create options).feeStroops.le balance.availableStroops = true ↔
              balance.availableStroops.lt
                (AnchorBalanceMonitor.create options).thresholdStroops = false) := by
  generalize hconfigured : AnchorBalanceMonitor.create options = configured
  have hstart : Remembers configured (Watch.start options).monitor [] :=
    ⟨by rw [← hconfigured]; rfl, by rw [← hconfigured]; rfl, rfl⟩
  have hremembers : Remembers configured watch.monitor events := hstart.run hrun
  by_cases hanswered : Alerts watch.monitor reading → delivered = true
  · have hanswer : guardAnswer texts watch.monitor reading now delivered =
        some ((watch.monitor.check texts reading now).monitor.beforeAnchor texts
          (watch.monitor.check texts reading now).status) := by
      refine if_pos ?_
      rw [Bool.or_eq_true, isNone_alert_iff]
      exact (Classical.em (Alerts watch.monitor reading)).symm.imp_right hanswered
    have hsettles : ∀ result : Except String Unit,
        some result = some (.ok ()) ∨ ∃ message, some result = some (.error message) := by
      rintro (message | ⟨⟩)
      · exact .inr ⟨message, rfl⟩
      · exact .inl rfl
    rw [Guards, hanswer, and_iff_left (hsettles _), Option.some_inj,
      beforeAnchor_check_eq_ok_iff hremembers, and_iff_right hanswered]
    cases reading with
    | error error => simp
    | ok balance =>
      simp only [Except.ok.injEq, exists_eq_left', forall_eq']
      exact pays_iff le_eq_false_of_lt
  · have hanswer : guardAnswer texts watch.monitor reading now delivered = none := by
      refine if_neg ?_
      rw [Bool.or_eq_true, isNone_alert_iff]
      tauto
    rw [Guards, hanswer]
    simp [hanswered]

/-- A rejection is reported, its alert delivered, and the account read above the threshold. -/
theorem guards_iff_reported :
    ∃ watch, exec (Watch.step sampleTexts) sampleStart
        [.report "tx_insufficient_balance" default, .settle 0 true] = some watch ∧
      (Guards (.create ⟨"GANCHOR", none, none⟩)
          [.report "tx_insufficient_balance" default, .settle 0 true] (sampleReading 50000000)
          default (guardAnswer sampleTexts watch.monitor (sampleReading 50000000) default true) ↔
        (Alerts watch.monitor (sampleReading 50000000) → true = true) ∧
          ∀ balance, sampleReading 50000000 = .ok balance →
            rejectionStands (AnchorBalanceMonitor.create ⟨"GANCHOR", none, none⟩).thresholdStroops
                ([.report "tx_insufficient_balance" default, .settle 0 true] ++
                  [.read (sampleReading 50000000) default]) = true ∨
              balance.availableStroops.lt
                (AnchorBalanceMonitor.create ⟨"GANCHOR", none, none⟩).feeStroops = true ∨
              ((AnchorBalanceMonitor.create ⟨"GANCHOR", none, none⟩).feeStroops.le
                  balance.availableStroops = true ↔
                balance.availableStroops.lt
                  (AnchorBalanceMonitor.create ⟨"GANCHOR", none, none⟩).thresholdStroops = false)) :=
  ⟨_, rfl, guards_iff sampleTexts ⟨"GANCHOR", none, none⟩ rfl (sampleReading 50000000) default true⟩

/-- A balance between the fee and the threshold is refused. -/
theorem not_guards_between :
    ¬ Guards (.create ⟨"GANCHOR", none, none⟩) [] (sampleReading 5000000) default
      (guardAnswer sampleTexts sampleStart.monitor (sampleReading 5000000) default true) := by
  intro hguards
  have hpasses := hguards.1.mpr
    ⟨⟨"GANCHOR", "stellar:testnet", .finite 5000000, default⟩, rfl, by decide +kernel,
      by decide +kernel⟩
  exact absurd hpasses (by decide +kernel)

end Verixa.StellarAnchor
