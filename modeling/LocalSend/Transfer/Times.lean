/-
  File:      LocalSend/Transfer/Times.lean
  Subject:   THE TIMES OF A TRANSFER, AT BOTH ENDS. A session that sends has no end; one whose
             transfer is over ended when it was over.

  * `transfer_times_iff` -- **when that is so in every state of a run**, on either side;
  * `transfer_times_wrong` -- a session is sent again, received again, or its end is noted twice.
-/
import LocalSend.Send.Times
import LocalSend.Send.Status
import LocalSend.Receive.Times

namespace LocalSend.Transfer

open Lib

/-- **The times agree with the status.** Under a clock that never goes back they do so in every
    state of a run if and only if, on the send side, no file is sent again in a session that has
    ended, and on the receive side a session with an end is left alone. -/
theorem transfer_times_iff (es : List SendSession.Event) (s : SendSession.State)
    (hsend : SendSession.service.Run Machine.anyStep SendSession.State.initial es s)
    (hclock : Machine.Forward SendSession.Event.time es) (platform : Receive.Platform)
    (fs : List Receive.Event) (t : Receive.State)
    (hreceive : (Receive.controller platform).Run Machine.anyStep Receive.State.initial fs t)
    (hclock' : Machine.Forward Receive.Event.time fs) :
    ((∀ es' s', es' <+: es →
        SendSession.service.Run Machine.anyStep SendSession.State.initial es' s' →
        SendSession.TimesAgree es' s') ↔
      SendSession.service.Run SendSession.timely SendSession.State.initial es s) ∧
    ((∀ fs' t', fs' <+: fs →
        (Receive.controller platform).Run Machine.anyStep Receive.State.initial fs' t' →
        Receive.TimesAgree platform fs' t') ↔
      (Receive.controller platform).Run Receive.timely Receive.State.initial fs t) :=
  ⟨SendSession.timesAgree_iff es s hsend hclock,
    Receive.timesAgree_iff platform fs t hreceive hclock'⟩

/-- A file that failed is sent again before the loop ends. -/
def resentRun : List SendSession.Event :=
  SendSession.retriedRun ++ [.uploadEnded 2 none 4, .work "S" 0, .work "S" 1, .loopEnded "S" 5]

/-- A retry in time, and a file that is received at once. -/
theorem transfer_times_iff_inTime :
    (∃ s, SendSession.service.Run Machine.anyStep SendSession.State.initial resentRun s ∧
      s.times "S" = some ⟨.finished, some 1, some 4⟩ ∧ SendSession.TimesAgree resentRun s) ∧
    (∃ s, (Receive.controller Receive.demoPlatform).Run Machine.anyStep Receive.State.initial
        Receive.uploadedRun s ∧
      s.times () = some ⟨.finished, some 7, some 9⟩ ∧
      Receive.TimesAgree Receive.demoPlatform Receive.uploadedRun s) := by
  have hsend : ((SendSession.service.guarded SendSession.timely).run SendSession.State.initial
      resentRun).map (fun s => s.times "S") = some (some ⟨.finished, some 1, some 4⟩) := by decide
  have hreceive : (((Receive.controller Receive.demoPlatform).guarded Receive.timely).run
      Receive.State.initial Receive.uploadedRun).map (fun s => s.times ()) =
      some (some ⟨.finished, some 7, some 9⟩) := by decide
  obtain ⟨s, hs, hobs⟩ := Machine.run_observe_guarded hsend
  obtain ⟨t, ht, hobs'⟩ := Machine.run_observe_guarded hreceive
  have hclock : Machine.Forward SendSession.Event.time resentRun := by decide
  have hclock' : Machine.Forward Receive.Event.time Receive.uploadedRun := by decide
  obtain ⟨hsender, hreceiver⟩ := transfer_times_iff resentRun s hs.any hclock Receive.demoPlatform
    Receive.uploadedRun t ht.any hclock'
  exact ⟨⟨s, hs.any, hobs, hsender.mpr hs resentRun s List.prefix_rfl hs.any⟩,
    ⟨t, ht.any, hobs', hreceiver.mpr ht Receive.uploadedRun t List.prefix_rfl ht.any⟩⟩

/-- The loop has ended with a failed file, which is then sent again. -/
def lateRetryRun : List SendSession.Event :=
  SendSession.acceptedRun false ++ [.work "S" 0, .work "S" 1, .uploadEnded 0 (some "reset") 2,
    .uploadEnded 1 none 3, .work "S" 0, .work "S" 1, .loopEnded "S" 4,
    .retry "S" ⟨⟨"a", "a.bin", 1, .other, none⟩, .failed, some "ta", some "/a.bin", none,
      some "reset"⟩]

/-- An upload of the one file, at the time `now`. -/
def uploadAt (r : Receive.RequestId) (now : Int) : Receive.Event :=
  .upload r ⟨"10.0.0.1", true, some "f", some "t", some "S"⟩ ⟨Receive.demoSettings, [], now⟩

/-- The upload fails, and the sender tries again. -/
def lateUploadRun : List Receive.Event :=
  Receive.decidedRun ++ [uploadAt 2 7, .saved 2 (.error "disk full") ⟨Receive.demoSettings, [], 8⟩,
    uploadAt 3 9]

/-- The file is uploaded twice at the same time, and both uploads fail. -/
def twoFailuresRun : List Receive.Event :=
  Receive.decidedRun ++ [uploadAt 2 7, uploadAt 3 7,
    .saved 2 (.error "disk full") ⟨Receive.demoSettings, [], 8⟩,
    .saved 3 (.error "disk full") ⟨Receive.demoSettings, [], 9⟩]

/-- **Sessions that send and have an end**, on either side, and one whose end is not the time at
    which it finished with errors. -/
theorem transfer_times_wrong :
    (∃ s, SendSession.service.Run Machine.anyStep SendSession.State.initial lateRetryRun s ∧
      Machine.Forward SendSession.Event.time lateRetryRun ∧
      s.times "S" = some ⟨.sending, some 1, some 4⟩ ∧ ¬ SendSession.TimesAgree lateRetryRun s) ∧
    (∃ s, (Receive.controller Receive.demoPlatform).Run Machine.anyStep Receive.State.initial
        lateUploadRun s ∧
      Machine.Forward Receive.Event.time lateUploadRun ∧
      s.times () = some ⟨.sending, some 7, some 8⟩ ∧
      ¬ Receive.TimesAgree Receive.demoPlatform lateUploadRun s) ∧
    (∃ s, (Receive.controller Receive.demoPlatform).Run Machine.anyStep Receive.State.initial
        twoFailuresRun s ∧
      Machine.Forward Receive.Event.time twoFailuresRun ∧
      s.times () = some ⟨.finishedWithErrors, some 7, some 9⟩ ∧
      ¬ Receive.TimesAgree Receive.demoPlatform twoFailuresRun s) := by
  have hretry : (SendSession.service.run SendSession.State.initial lateRetryRun).map
      (fun s => s.times "S") = some (some ⟨.sending, some 1, some 4⟩) := by decide
  have hupload : ((Receive.controller Receive.demoPlatform).run Receive.State.initial
      lateUploadRun).map (fun s => s.times ()) = some (some ⟨.sending, some 7, some 8⟩) := by decide
  have htwice : ((Receive.controller Receive.demoPlatform).run Receive.State.initial
      twoFailuresRun).map (fun s => (s.times (), s.session.map
        Receive.ReceiveSessionState.sessionId)) =
      some (some ⟨.finishedWithErrors, some 7, some 9⟩, some "S") := by decide
  refine ⟨?_, ?_, ?_⟩
  · obtain ⟨s, hs, hobs⟩ := Machine.run_observe hretry
    refine ⟨s, hs, by decide, hobs, fun hagree => ?_⟩
    cases (hagree "S" _ hobs).sending rfl
  · obtain ⟨s, hs, hobs⟩ := Machine.run_observe hupload
    refine ⟨s, hs, by decide, hobs, fun hagree => ?_⟩
    cases (hagree () _ hobs).sending rfl
  · obtain ⟨s, hs, hobs⟩ := Machine.run_observe htwice
    obtain ⟨htimes, hid⟩ := Prod.mk.inj hobs
    obtain ⟨session, hses, hid⟩ := Option.map_eq_some_iff.mp hid
    refine ⟨s, hs, by decide, htimes, fun hagree => ?_⟩
    have hpast : (Receive.controller Receive.demoPlatform).Past (Receive.begins "S")
        Receive.State.initial twoFailuresRun := by decide
    obtain ⟨_, stop, _, hstop, _, hentered⟩ :=
      (hagree () _ htimes).ended (Or.inr rfl) ⟨session, hses, hid ▸ hpast⟩
    -- the status was entered at 8
    have hlast : entered (Receive.controller Receive.demoPlatform) Receive.Event.time
        Receive.State.times Receive.State.initial twoFailuresRun () = some (some 8) := by decide
    rw [hlast] at hentered
    cases hstop
    cases hentered

end LocalSend.Transfer
