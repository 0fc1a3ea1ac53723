import Verixa.SharedKernel.IsoDate
import Verixa.SharedKernel.NumberArithmetic

/-!
# The balance monitor of the anchoring account

`AnchorBalanceMonitor` reads the balance of the account that pays for anchoring and alerts an
operator when it runs low, cannot be read, or was refused by the ledger.  It alerts once for a
condition that lasts: `lastAlertedKind` is the kind alerted last, and an alert of that kind is not
raised again.

`check` and `reportUnderfundedRejection` are given up to the point where they wait for the alerter,
and what they do once the alert is delivered.  How numbers are written into the messages is a
parameter.
-/

namespace Verixa.StellarAnchor

/-- Stroops in one XLM. -/
def STROOPS_PER_XLM : ℚ := 10000000

/-- The base fee of the ledger. -/
def ANCHOR_TRANSACTION_FEE_STROOPS : Number := .finite 100

/-- The default alert level. -/
def DEFAULT_BALANCE_THRESHOLD_XLM : Number := .finite 1

/-- Stroops as XLM. -/
def stroopsToXlm (stroops : Number) : Number := stroops.scale STROOPS_PER_XLM⁻¹

/-- How a number is written: `String(a)`, and `a.toFixed(7)`. -/
structure NumberTexts where
  text : Number → String
  toFixed7 : Number → String

/-- A balance read from the ledger. -/
structure AnchorAccountBalance where
  publicKey : String
  network : String
  availableStroops : Number
  queriedAt : Date

/-- The balance could not be read. -/
structure BalanceUnavailableError where
  message : String

/-- Why the monitor alerts. -/
inductive AnchorFundingAlertKind where
  | belowThreshold
  | unfundable
  | balanceUnreadable
  | unfundableAnchorAttempt
  | recovered
  deriving DecidableEq

/-- A funding alert. -/
structure AnchorFundingAlert where
  kind : AnchorFundingAlertKind
  network : String
  publicKey : String
  availableXlm : Option Number
  thresholdXlm : Number
  message : String
  observedAt : Date

/-- A funding observation for dashboards. -/
structure AnchorBalanceMetric where
  valueXlm : Number
  availableStroops : Number
  thresholdStroops : Number
  fundable : Bool
  network : String
  publicKey : String
  observedAt : Date

/-- How a balance is classified. -/
inductive FundingKind where
  | funded
  | belowThreshold
  | unfundable
  deriving DecidableEq

/-- What a check concludes. -/
inductive AnchorFundingStatus where
  | known (kind : FundingKind) (balance : AnchorAccountBalance)
  | unknown (error : BalanceUnavailableError)

/-- `status.kind === "funded"`. -/
def AnchorFundingStatus.isFunded : AnchorFundingStatus → Bool
  | .known .funded _ => true
  | _ => false

/-- The options of a monitor that are not its ports. -/
structure AnchorBalanceMonitorOptions where
  publicKey : String
  thresholdXlm : Option Number
  transactionFeeStroops : Option Number

/-- The fields of a monitor that are not its ports. -/
structure AnchorBalanceMonitor where
  publicKey : String
  thresholdStroops : Number
  feeStroops : Number
  lastAlertedKind : Option AnchorFundingAlertKind
  reportedUnderfunded : Bool
  lastStatus : Option AnchorFundingStatus

namespace AnchorBalanceMonitor

/-- A new monitor. -/
def create (options : AnchorBalanceMonitorOptions) : AnchorBalanceMonitor where
  publicKey := options.publicKey
  thresholdStroops :=
    ((options.thresholdXlm.getD DEFAULT_BALANCE_THRESHOLD_XLM).scale STROOPS_PER_XLM).round
  feeStroops := options.transactionFeeStroops.getD ANCHOR_TRANSACTION_FEE_STROOPS
  lastAlertedKind := none
  reportedUnderfunded := false
  lastStatus := none

/-- The configured alert level, in XLM. -/
def thresholdXlm (monitor : AnchorBalanceMonitor) : Number := stroopsToXlm monitor.thresholdStroops

/-- `#classify`. -/
def classify (monitor : AnchorBalanceMonitor) (balance : AnchorAccountBalance) : FundingKind :=
  if monitor.reportedUnderfunded || balance.availableStroops.lt monitor.feeStroops then .unfundable
  else if balance.availableStroops.lt monitor.thresholdStroops then .belowThreshold else .funded

/-- `#emitMetric`. -/
def metric (monitor : AnchorBalanceMonitor) (balance : Option AnchorAccountBalance) (now : Date) :
    AnchorBalanceMetric where
  valueXlm := balance.elim (.finite 0) fun balance => stroopsToXlm balance.availableStroops
  availableStroops := balance.elim (.finite 0) fun balance => balance.availableStroops
  thresholdStroops := monitor.thresholdStroops
  fundable := balance.any fun balance =>
    !monitor.reportedUnderfunded && monitor.feeStroops.le balance.availableStroops
  network := balance.elim "unknown" fun balance => balance.network
  publicKey := monitor.publicKey
  observedAt := now

/-- The balance a status is about. -/
def balanceOf : Option AnchorFundingStatus → Option AnchorAccountBalance
  | some (.known _ balance) => some balance
  | _ => none

/-- `#raise` up to its call of the alerter, with the alert unless it would repeat the last one. -/
def raise (monitor : AnchorBalanceMonitor) (status : Option AnchorFundingStatus)
    (kind : AnchorFundingAlertKind) (message : String) (force : Bool) (now : Date) :
    AnchorBalanceMonitor × Option AnchorFundingAlert :=
  if !force && monitor.lastAlertedKind == some kind then (monitor, none)
  else
    ({ monitor with lastAlertedKind := some kind },
      some
        { kind := kind
          network := (balanceOf status).elim "unknown" fun balance => balance.network
          publicKey := monitor.publicKey
          availableXlm := (balanceOf status).map fun balance =>
            stroopsToXlm balance.availableStroops
          thresholdXlm := monitor.thresholdXlm
          message := message
          observedAt := now })

variable (texts : NumberTexts)

/-- `${publicKey} holds ${balance} XLM`, as the messages begin. -/
def holds (monitor : AnchorBalanceMonitor) (balance : AnchorAccountBalance) : String :=
  monitor.publicKey ++ " holds " ++ texts.toFixed7 (stroopsToXlm balance.availableStroops) ++ " XLM"

/-- `#raiseForBalance` up to its call of the alerter. -/
def raiseForBalance (monitor : AnchorBalanceMonitor) (balance : AnchorAccountBalance)
    (kind : FundingKind) (now : Date) : AnchorBalanceMonitor × Option AnchorFundingAlert :=
  match kind with
  | .funded =>
    if monitor.lastAlertedKind.isSome then
      monitor.raise (some (.known kind balance)) .recovered
        (monitor.publicKey ++ " is funded again at " ++
          texts.toFixed7 (stroopsToXlm balance.availableStroops) ++ " XLM.") false now
    else (monitor, none)
  | .unfundable =>
    monitor.raise (some (.known kind balance)) .unfundable
      (monitor.holds texts balance ++ ", below the " ++ texts.text monitor.feeStroops ++
        " stroops an anchoring transaction costs.") false now
  | .belowThreshold =>
    monitor.raise (some (.known kind balance)) .belowThreshold
      (monitor.holds texts balance ++ ", below the alert threshold of " ++
        texts.text monitor.thresholdXlm ++ " XLM.") false now

/-- What a check has done when it calls the alerter or, without an alert, ends. -/
structure Observation where
  monitor : AnchorBalanceMonitor
  status : AnchorFundingStatus
  metric : AnchorBalanceMetric
  alert : Option AnchorFundingAlert

/-- A check whose balance could not be read. -/
def observeUnreadable (monitor : AnchorBalanceMonitor) (error : BalanceUnavailableError)
    (now : Date) : Observation :=
  let noted := { monitor with lastStatus := some (.unknown error) }
  let raised := noted.raise (some (.unknown error)) .balanceUnreadable error.message false now
  ⟨raised.1, .unknown error, noted.metric none now, raised.2⟩

/-- A balance at the threshold or above retires a rejection reported by the ledger. -/
def retire (monitor : AnchorBalanceMonitor) (balance : AnchorAccountBalance) :
    AnchorBalanceMonitor :=
  if monitor.thresholdStroops.le balance.availableStroops then
    { monitor with reportedUnderfunded := false }
  else monitor

/-- A check that has read a balance. -/
def observeBalance (monitor : AnchorBalanceMonitor) (balance : AnchorAccountBalance) (now : Date) :
    Observation :=
  let retired := monitor.retire balance
  let kind := retired.classify balance
  let noted := { retired with lastStatus := some (.known kind balance) }
  let raised := noted.raiseForBalance texts balance kind now
  ⟨raised.1, .known kind balance, noted.metric (some balance) now, raised.2⟩

/-- `check` from the answer of the reader up to its call of the alerter. -/
def check (monitor : AnchorBalanceMonitor)
    (reading : Except BalanceUnavailableError AnchorAccountBalance) (now : Date) : Observation :=
  match reading with
  | .error error => monitor.observeUnreadable error now
  | .ok balance => monitor.observeBalance texts balance now

/-- `reportUnderfundedRejection` up to its call of the alerter. -/
def reportUnderfundedRejection (monitor : AnchorBalanceMonitor) (detail : String) (now : Date) :
    AnchorBalanceMonitor × Option AnchorFundingAlert :=
  let reported := { monitor with reportedUnderfunded := true }
  reported.raise monitor.lastStatus .unfundableAnchorAttempt
    ("An anchoring transaction for " ++ monitor.publicKey ++
      " was refused for insufficient funds: " ++ detail) true now

/-- The rest of `reportUnderfundedRejection`, once its alert is delivered. -/
def reported (monitor : AnchorBalanceMonitor) : AnchorBalanceMonitor :=
  { monitor with lastAlertedKind := some .unfundable }

/-- `beforeAnchor`, from the status its check resolves with: the reason not to submit. -/
def beforeAnchor (monitor : AnchorBalanceMonitor) : AnchorFundingStatus → Except String Unit
  | .known .funded _ => .ok ()
  | .known _ balance =>
    .error ("Not submitting an anchoring transaction: " ++ monitor.holds texts balance ++
      ", which cannot cover the " ++ texts.text monitor.feeStroops ++ "-stroop fee.")
  | .unknown error =>
    .error ("Not submitting an anchoring transaction: the funding state of " ++
      monitor.publicKey ++ " could not be established (" ++ error.message ++ ").")

/-! ## What a call does to the kind alerted last -/

/-- The kind of alert a classified balance calls for. -/
def alertKindOf : FundingKind → AnchorFundingAlertKind
  | .funded => .recovered
  | .belowThreshold => .belowThreshold
  | .unfundable => .unfundable

/-- The kind of alert a reading calls for. -/
def kindFound (monitor : AnchorBalanceMonitor) :
    Except BalanceUnavailableError AnchorAccountBalance → AnchorFundingAlertKind
  | .error _ => .balanceUnreadable
  | .ok balance => alertKindOf ((monitor.retire balance).classify balance)

variable {monitor : AnchorBalanceMonitor}

theorem retire_lastAlertedKind (balance : AnchorAccountBalance) :
    (monitor.retire balance).lastAlertedKind = monitor.lastAlertedKind := by
  unfold retire
  split <;> rfl

/-- Without an alert nothing has changed, and the kind is the one alerted last. -/
theorem raise_silent {status : Option AnchorFundingStatus} {kind : AnchorFundingAlertKind}
    {message : String} {force : Bool} {now : Date}
    (h : (monitor.raise status kind message force now).2 = none) :
    (monitor.raise status kind message force now).1 = monitor ∧
      monitor.lastAlertedKind = some kind := by
  unfold raise at h ⊢
  split at h
  · rename_i hsame
    rw [if_pos hsame]
    have hlast : force = false ∧ monitor.lastAlertedKind = some kind := by simpa using hsame
    exact ⟨rfl, hlast.2⟩
  · cases h

/-- An alert has the kind asked for, which is from then on the one alerted last. -/
theorem raise_alerting {status : Option AnchorFundingStatus} {kind : AnchorFundingAlertKind}
    {message : String} {now : Date} {alert : AnchorFundingAlert}
    (h : (monitor.raise status kind message false now).2 = some alert) :
    alert.kind = kind ∧
      (monitor.raise status kind message false now).1.lastAlertedKind = some kind ∧
      monitor.lastAlertedKind ≠ some kind := by
  unfold raise at h ⊢
  split at h
  · cases h
  · rename_i hother
    rw [if_neg hother]
    cases h
    refine ⟨rfl, rfl, fun hlast => hother ?_⟩
    simp [hlast]

/-- A balance ends without an alert when it calls for the alert raised last, or for none. -/
theorem raiseForBalance_silent {balance : AnchorAccountBalance} {kind : FundingKind} {now : Date}
    (h : (monitor.raiseForBalance texts balance kind now).2 = none) :
    (monitor.raiseForBalance texts balance kind now).1 = monitor ∧
      (monitor.lastAlertedKind = some (alertKindOf kind) ∨
        kind = .funded ∧ monitor.lastAlertedKind = none) := by
  cases kind with
  | funded =>
    unfold raiseForBalance at h ⊢
    dsimp only at h ⊢
    split at h
    · rename_i hsome
      rw [if_pos hsome]
      exact ⟨(raise_silent h).1, .inl (raise_silent h).2⟩
    · rename_i hnone
      rw [if_neg hnone]
      exact ⟨rfl, .inr ⟨rfl, by simpa using hnone⟩⟩
  | belowThreshold => exact ⟨(raise_silent h).1, .inl (raise_silent h).2⟩
  | unfundable => exact ⟨(raise_silent h).1, .inl (raise_silent h).2⟩

/-- An alert about a balance is not of the kind raised last, and a recovery follows an alert. -/
theorem raiseForBalance_alerting {balance : AnchorAccountBalance} {kind : FundingKind} {now : Date}
    {alert : AnchorFundingAlert}
    (h : (monitor.raiseForBalance texts balance kind now).2 = some alert) :
    alert.kind = alertKindOf kind ∧
      (monitor.raiseForBalance texts balance kind now).1.lastAlertedKind =
        some (alertKindOf kind) ∧
      monitor.lastAlertedKind ≠ some (alertKindOf kind) ∧
      (kind = .funded → monitor.lastAlertedKind ≠ none) := by
  cases kind with
  | funded =>
    unfold raiseForBalance at h ⊢
    dsimp only at h ⊢
    split at h
    · rename_i hsome
      rw [if_pos hsome]
      obtain ⟨hkind, hafter, hbefore⟩ := raise_alerting h
      exact ⟨hkind, hafter, hbefore, fun _ => Option.isSome_iff_ne_none.mp hsome⟩
    · cases h
  | belowThreshold =>
    obtain ⟨hkind, hafter, hbefore⟩ := raise_alerting h
    exact ⟨hkind, hafter, hbefore, nofun⟩
  | unfundable =>
    obtain ⟨hkind, hafter, hbefore⟩ := raise_alerting h
    exact ⟨hkind, hafter, hbefore, nofun⟩

theorem alertKindOf_eq_recovered_iff {kind : FundingKind} :
    alertKindOf kind = .recovered ↔ kind = .funded := by
  cases kind <;> simp [alertKindOf]

/-- A check ends without an alert when its reading calls for the alert raised last, or for none. -/
theorem check_silent {reading : Except BalanceUnavailableError AnchorAccountBalance} {now : Date}
    (h : (monitor.check texts reading now).alert = none) :
    (monitor.check texts reading now).monitor.lastAlertedKind = monitor.lastAlertedKind ∧
      (monitor.lastAlertedKind = some (monitor.kindFound reading) ∨
        monitor.kindFound reading = .recovered ∧ monitor.lastAlertedKind = none) := by
  cases reading with
  | error error =>
    obtain ⟨hsame, hlast⟩ := raise_silent h
    have hafter := congrArg lastAlertedKind hsame
    exact ⟨hafter, .inl hlast⟩
  | ok balance =>
    obtain ⟨hsame, hlast⟩ := raiseForBalance_silent texts h
    have hafter := congrArg lastAlertedKind hsame
    dsimp only at hlast
    rw [retire_lastAlertedKind] at hlast
    refine ⟨hafter.trans (retire_lastAlertedKind balance), ?_⟩
    refine hlast.imp_right fun hnone => ⟨?_, hnone.2⟩
    exact alertKindOf_eq_recovered_iff.mpr hnone.1

/-- An alert a check raises is of the kind its reading calls for, and not the one raised last. -/
theorem check_alerting {reading : Except BalanceUnavailableError AnchorAccountBalance} {now : Date}
    {alert : AnchorFundingAlert} (h : (monitor.check texts reading now).alert = some alert) :
    alert.kind = monitor.kindFound reading ∧
      (monitor.check texts reading now).monitor.lastAlertedKind = some alert.kind ∧
      monitor.lastAlertedKind ≠ some alert.kind ∧
      (alert.kind = .recovered → monitor.lastAlertedKind ≠ none) := by
  cases reading with
  | error error =>
    obtain ⟨hkind, hafter, hbefore⟩ := raise_alerting h
    rw [hkind]
    exact ⟨rfl, hafter, hbefore, nofun⟩
  | ok balance =>
    obtain ⟨hkind, hafter, hbefore, hrecovery⟩ := raiseForBalance_alerting texts h
    dsimp only at hbefore hrecovery
    rw [retire_lastAlertedKind] at hbefore hrecovery
    rw [hkind]
    exact ⟨rfl, hafter, hbefore, fun hfound => hrecovery (alertKindOf_eq_recovered_iff.mp hfound)⟩

/-- A check finds a funded account exactly when its reading calls for no alarm. -/
theorem isFunded_check (reading : Except BalanceUnavailableError AnchorAccountBalance)
    (now : Date) :
    (monitor.check texts reading now).status.isFunded = true ↔
      monitor.kindFound reading = .recovered := by
  cases reading with
  | error error => simp [check, observeUnreadable, AnchorFundingStatus.isFunded, kindFound]
  | ok balance =>
    simp only [check, observeBalance, kindFound, alertKindOf_eq_recovered_iff]
    cases (monitor.retire balance).classify balance <;> simp [AnchorFundingStatus.isFunded]

/-- A reported rejection always alerts. -/
theorem exists_alert_of_report (detail : String) (now : Date) :
    ∃ alert, (monitor.reportUnderfundedRejection detail now).2 = some alert ∧
      alert.kind = .unfundableAnchorAttempt ∧
      (monitor.reportUnderfundedRejection detail now).1.lastAlertedKind =
        some .unfundableAnchorAttempt :=
  ⟨_, rfl, rfl, rfl⟩

/-- Anchoring goes ahead exactly with a funded account. -/
theorem beforeAnchor_eq_ok_iff (status : AnchorFundingStatus) :
    monitor.beforeAnchor texts status = .ok () ↔ status.isFunded = true := by
  cases status with
  | unknown error => simp [beforeAnchor, AnchorFundingStatus.isFunded]
  | known kind balance => cases kind <;> simp [beforeAnchor, AnchorFundingStatus.isFunded]

end AnchorBalanceMonitor

end Verixa.StellarAnchor
