import AkV3Driver.Node.FeedbackPath
import AkV3Driver.Protocol.FeedbackCodec

/-!
# How the error byte is reported

Each published pair of messages reports the error byte of its own status frame, by
value alone: what was called before does not matter. The acknowledgement of a
disable is therefore reported like any other nonzero code.
-/

namespace AkV3Driver
open Mailbox (itemsOf)
open Protocol (StatusFrame ExtendedPositionFrame CanFrame decodeStatusFrame faultCodeToString)

structure ReportsCode (code : UInt8) (state : MotorState) (diag : DiagnosticStatus) : Prop where
  errorCode : state.errorCode = code
  errorText : state.errorText = faultCodeToString code
  level : diag.level = .error ↔ code ≠ 0
  message : code ≠ 0 → diag.message = faultCodeToString code

section Reports
variable (conv : FloatCast) (cfg : NodeConfig)

theorem reportsCode (last : Option ℚ) (status : StatusFrame) :
    ReportsCode status.errorCode (motorState cfg last status) (diagnosticStatus cfg status) where
  errorCode := rfl
  errorText := rfl
  level := by simp [diagnosticStatus]
  message h := by simp [diagnosticStatus, h]

theorem run_reports (es : List Event) {i : ℕ} {state : MotorState} {diag : DiagnosticStatus}
    (hstate : (run conv cfg {} es).states[i]? = some state)
    (hdiag : (run conv cfg {} es).diagnostics[i]? = some diag) :
    ∃ status, (itemsOf (received cfg.canId es))[i]? = some status ∧
      ReportsCode status.errorCode state diag := by
  obtain ⟨m, hm, hitems⟩ := run_conserves conv cfg es
  rw [hm.states, List.getElem?_map] at hstate
  rw [hm.diagnostics, List.getElem?_map] at hdiag
  obtain ⟨p, hp, rfl⟩ := Option.map_eq_some_iff.mp hstate
  rw [hp] at hdiag
  obtain rfl := Option.some.inj hdiag
  have hfst : (m.delivered.map Prod.fst)[i]? = some p.1 := by
    rw [List.getElem?_map, hp]
    rfl
  refine ⟨p.1, ?_, reportsCode cfg _ p.1⟩
  rw [← hitems, List.getElem?_append_left (List.getElem?_eq_some_iff.mp hfst).1, hfst]

/-- A drain has published everything that was received before it. -/
theorem exists_published (before after : List Event) {i : ℕ}
    (hi : i < (itemsOf (received cfg.canId before)).length) :
    ∃ state diag, (run conv cfg {} (before ++ .drain :: after)).states[i]? = some state ∧
      (run conv cfg {} (before ++ .drain :: after)).diagnostics[i]? = some diag := by
  obtain ⟨m, hm, hitems⟩ := run_conserves conv cfg before
  have hdrain : Refines cfg (run conv cfg {} (before ++ [.drain])) (Mailbox.step m .drain) := by
    rw [run, Runs.run_append]
    exact drain_refines cfg hm
  have hrun := run_refines conv cfg after hdrain
  obtain ⟨out, hout, -⟩ := Mailbox.run_sources (after.flatMap (feedbackOps cfg.canId))
    (Mailbox.step m .drain)
  have hsplit : run conv cfg {} (before ++ .drain :: after) =
      run conv cfg (run conv cfg {} (before ++ [.drain])) after := by
    simp [run, Runs.run_append]
  have hlen := congrArg List.length hitems
  rw [hsplit, hrun.states, hrun.diagnostics, hout]
  have hlt : i < ((Mailbox.step m .drain).delivered ++ out).length := by
    simp [Mailbox.step] at hlen ⊢
    omega
  exact ⟨_, _, by rw [List.getElem?_map, List.getElem?_eq_getElem hlt]; rfl,
    by rw [List.getElem?_map, List.getElem?_eq_getElem hlt]; rfl⟩

end Reports

def disableThenRead (pre quiet post : List Event) (read : SocketRead) : List Event :=
  pre ++ .disable true :: quiet ++ .rx read :: post

/-- `read` delivers `frame`, the first status after the call. -/
structure FirstStatus (canId : UInt8) (quiet : List Event) (read : SocketRead)
    (frame : CanFrame) : Prop where
  quiet : itemsOf (received canId quiet) = []
  receive : CanSocket.receive {} read = some frame
  decode : (decodeStatusFrame frame canId).isSome

theorem FirstStatus.statuses {canId : UInt8} {quiet : List Event} {read : SocketRead}
    {frame : CanFrame} (h : FirstStatus canId quiet read frame) :
    ∃ status, status.errorCode = frame.data.read 7 ∧ ∀ pre post,
      itemsOf (received canId (disableThenRead pre quiet post read)) =
        itemsOf (received canId pre) ++ status :: itemsOf (received canId post) := by
  obtain ⟨status, hstatus⟩ := Option.isSome_iff_exists.mp h.decode
  have hread : feedbackOf canId read = some (.inl status) := by
    simp [feedbackOf, h.receive, hstatus]
  refine ⟨status, congrArg StatusFrame.errorCode (Protocol.StatusWire.decode_eq hstatus), ?_⟩
  intro pre post
  simp [disableThenRead, received_append, received_cons, Event.feedback, hread, h.quiet]

theorem disable_ack_reported (conv : FloatCast) (cfg : NodeConfig) (pre quiet post : List Event)
    (read : SocketRead) (frame : CanFrame) (hfirst : FirstStatus cfg.canId quiet read frame)
    (hack : frame.data.read 7 = 0x77) :
    let es := disableThenRead pre quiet post read
    let s := run conv cfg {} es
    let k := (itemsOf (received cfg.canId pre)).length
    (.drain ∈ post → ∃ state diag, s.states[k]? = some state ∧ s.diagnostics[k]? = some diag) ∧
    (∀ state diag, s.states[k]? = some state → s.diagnostics[k]? = some diag →
      state.errorCode = 0x77 ∧ state.errorText = "unknown" ∧
        diag.level = .error ∧ diag.message = "unknown") ∧
    (∀ (i : ℕ) (state : MotorState) (diag : DiagnosticStatus),
      s.states[i]? = some state → s.diagnostics[i]? = some diag →
      ∃ status, (itemsOf (received cfg.canId es))[i]? = some status ∧
        ReportsCode status.errorCode state diag) ∧
    ∀ (i : ℕ) (state : MotorState) (diag : DiagnosticStatus) (status : StatusFrame),
      (itemsOf (received cfg.canId es))[i]? = some status →
      s.states[i]? = some state → s.diagnostics[i]? = some diag →
      1 ≤ status.errorCode → status.errorCode ≤ 7 →
      state.errorCode = status.errorCode ∧ diag.level = .error ∧
        diag.message = faultCodeToString status.errorCode := by
  obtain ⟨status, hcode, hstatuses⟩ := hfirst.statuses
  refine ⟨?_, ?_, fun i state diag => run_reports conv cfg _, ?_⟩
  · intro hdrain
    obtain ⟨before, after, rfl⟩ := List.append_of_mem hdrain
    have hsplit : disableThenRead pre quiet (before ++ .drain :: after) read =
        disableThenRead pre quiet before read ++ .drain :: after := by
      simp [disableThenRead]
    rw [hsplit]
    apply exists_published
    simp [hstatuses]
  · intro state diag hstate hdiag
    obtain ⟨status', hk, hreports⟩ := run_reports conv cfg _ hstate hdiag
    have hstatus : status' = status := by
      simpa [hstatuses] using hk.symm
    rw [hstatus, hcode, hack] at hreports
    exact ⟨hreports.errorCode, hreports.errorText, hreports.level.mpr (by decide),
      hreports.message (by decide)⟩
  · intro i state diag status' hi hstate hdiag hlo _
    obtain ⟨status'', hi', hreports⟩ := run_reports conv cfg _ hstate hdiag
    obtain rfl := Option.some.inj (hi.symm.trans hi')
    have hne : status'.errorCode ≠ 0 := by
      intro h0
      rw [h0] at hlo
      exact absurd hlo (by decide)
    exact ⟨hreports.errorCode, hreports.level.mpr hne, hreports.message hne⟩

def disableThenFault : List Event :=
  disableThenRead [] []
    [.rx (.frame ⟨0x80002901, 8, ![0, 0, 0, 0, 0, 0, 30, 2], canDlc_eight⟩), .drain]
    (.frame ⟨0x80002901, 8, ![0, 0, 0, 0, 0, 0, 30, 0x77], canDlc_eight⟩)

/-- An acknowledged disable, then an over-current status, before one drain. -/
theorem disable_ack_reported_then_fault :
    ∃ ack ackDiag fault faultDiag,
      (run .wrapping (ak80Node false) {} disableThenFault).states = [ack, fault] ∧
      (run .wrapping (ak80Node false) {} disableThenFault).diagnostics = [ackDiag, faultDiag] ∧
      (ack.errorCode = 0x77 ∧ ack.errorText = "unknown" ∧
        ackDiag.level = .error ∧ ackDiag.message = "unknown") ∧
      ReportsCode 2 fault faultDiag ∧
      fault.errorCode = 2 ∧ faultDiag.level = .error ∧
        faultDiag.message = faultCodeToString 2 := by
  obtain ⟨-, hack, hreports, hfault⟩ := disable_ack_reported .wrapping (ak80Node false) [] []
    [.rx (.frame ⟨0x80002901, 8, ![0, 0, 0, 0, 0, 0, 30, 2], by decide⟩), .drain]
    (.frame ⟨0x80002901, 8, ![0, 0, 0, 0, 0, 0, 30, 0x77], by decide⟩) _ ⟨rfl, rfl, rfl⟩ rfl
  obtain ⟨status, hstatus, hreport⟩ := hreports 1 _ _ rfl rfl
  obtain rfl := Option.some.inj hstatus
  exact ⟨_, _, _, _, rfl, rfl, hack _ _ rfl rfl, hreport,
    hfault 1 _ _ _ rfl rfl rfl (by decide) (by decide)⟩

theorem disable_ack_raises_error :
    ¬∀ (conv : FloatCast) (cfg : NodeConfig) (pre quiet post : List Event) (read : SocketRead)
      (frame : CanFrame), FirstStatus cfg.canId quiet read frame → frame.data.read 7 = 0x77 →
      ∀ state diag,
        (run conv cfg {} (disableThenRead pre quiet post read)).states[
          (itemsOf (received cfg.canId pre)).length]? = some state →
        (run conv cfg {} (disableThenRead pre quiet post read)).diagnostics[
          (itemsOf (received cfg.canId pre)).length]? = some diag →
        diag.level ≠ .error ∧ state.errorCode = 0 := by
  intro h
  have hack := h .wrapping (ak80Node false) [] [] [.drain]
    (.frame ⟨0x80002901, 8, ![0, 0, 0, 0, 0, 0, 30, 0x77], by decide⟩)
    _ ⟨rfl, rfl, rfl⟩ rfl _ _ rfl rfl
  exact hack.1 rfl

end AkV3Driver
