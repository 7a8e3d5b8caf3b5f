import CallTrace.Engine.Listener
import CallTrace.Proofs.Builder.Run
import CallTrace.Proofs.Except

/-!
# What a listener does to its builder

Whatever a listener is told, its builder gets to states only that events lead to.
-/

namespace CallTrace.Listener

open Builder (Reaches)

variable {β : Type} [Builder β] {listener next : Listener β}

theorem reaches_openFrame (listener : Listener β) (frame : Frame) :
    Reaches listener.builder (listener.openFrame frame).builder :=
  .advance listener.builder _

theorem reaches_of_closeFrame {exitCode : ExitCode} {completion : Completion}
    (hclose : listener.closeFrame exitCode completion = .ok next) :
    Reaches listener.builder next.builder := by
  obtain ⟨builder, happly, hnext⟩ := bind_eq_ok_iff.mp hclose
  cases hnext
  exact .of_apply happly

theorem reaches_of_step {code : Bytes} {position : Nat} {gas : UInt64}
    (hstep : listener.step code position gas = .ok next) :
    Reaches listener.builder next.builder := by
  obtain ⟨builder, happly, hnext⟩ := bind_eq_ok_iff.mp hstep
  cases hnext
  exact .of_apply happly

/-- A signal that is taken in is passed on as events. -/
theorem reaches_of_apply {signal : Signal} (happly : listener.apply signal = .ok next) :
    Reaches listener.builder next.builder := by
  cases signal with
  | openFrame frame =>
      cases happly
      exact listener.reaches_openFrame frame
  | closeFrame exitCode completion => exact reaches_of_closeFrame happly
  | selfDestruct contract beneficiary balance =>
      let opened := listener.openFrame (.ofDestruction contract beneficiary balance)
      have hclose : opened.closeFrame .selfDestructed default = .ok next := happly
      exact (listener.reaches_openFrame _).trans (reaches_of_closeFrame hclose)
  | call inputs =>
      cases happly
      exact listener.reaches_openFrame inputs.frame
  | callEnd ending => exact reaches_of_closeFrame happly
  | create inputs =>
      cases happly
      exact listener.reaches_openFrame inputs.frame
  | createEnd ending => exact reaches_of_closeFrame happly
  | step code position gas => exact reaches_of_step happly
  | reset context =>
      cases happly
      exact .advance listener.builder (.reset context)

theorem reaches_advance (listener : Listener β) (signal : Signal) :
    Reaches listener.builder (listener.advance signal).builder := by
  unfold advance
  cases happly : listener.apply signal with
  | ok next => exact reaches_of_apply happly
  | error error => exact .refl listener.builder

theorem reaches_run (listener : Listener β) (signals : List Signal) :
    Reaches listener.builder (listener.run signals).builder := by
  induction signals generalizing listener with
  | nil => exact .refl listener.builder
  | cons signal signals ih => exact (listener.reaches_advance signal).trans (ih _)

/-- The states of a builder that is given events, and that listeners are put around and
taken off again. -/
inductive Recording (initial : β) : β → Prop where
  | start : Recording initial initial
  | events {builder : β} (events : List Event) (hbuilder : Recording initial builder) :
      Recording initial (Builder.run builder events)
  | signals {builder : β} (signals : List Signal) (hbuilder : Recording initial builder) :
      Recording initial ((ofBuilder builder).run signals).builder

/-- A builder gets nowhere with a listener that it would not get without one. -/
theorem Recording.reaches {initial builder : β} (hbuilder : Recording initial builder) :
    Reaches initial builder := by
  induction hbuilder with
  | start => exact .refl initial
  | events events hbuilder ih => exact ih.trans ⟨events, rfl⟩
  | @signals builder signals hbuilder ih => exact ih.trans ((ofBuilder builder).reaches_run signals)

end CallTrace.Listener
