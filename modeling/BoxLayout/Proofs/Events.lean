-- SUMMARY: The order in which an engine reports losses, failed rebuilds and rebuilds, and what each report does to its health.
import BoxLayout.Proofs.Reads
import Mathlib.Computability.Language

/-!
# Events

An engine goes through rounds. It loses its solver, rebuilds fail for a while, and one of them
succeeds. Each event stands for one such turn, so the events by themselves tell whether there
is a solver, and the health of the engine is the tally of its events.

A mutation drops the solver at most once: what it has to do to the solver after that is not
done at all. A read tries to rebuild at most once.
-/

namespace BoxLayout

open scoped Computability

/-! ## Sorts of events -/

namespace SolverEvent

def isInvalidated : SolverEvent → Bool
  | invalidated _ => true
  | _ => false

def isRebuilt : SolverEvent → Bool
  | rebuilt => true
  | _ => false

def isRebuildFailed : SolverEvent → Bool
  | rebuildFailed _ => true
  | _ => false

/-- What went wrong, if anything did. -/
def cause? : SolverEvent → Option SolverError
  | invalidated cause | rebuildFailed cause => some cause
  | rebuilt => none

theorem isInvalidated_iff {event : SolverEvent} :
    event.isInvalidated = true ↔ ∃ cause, event = .invalidated cause := by
  cases event <;> simp [isInvalidated]

theorem isRebuilt_of_isInvalidated {event : SolverEvent} (h : event.isInvalidated = true) :
    event.isRebuilt = false := by
  cases event <;> simp_all [isInvalidated, isRebuilt]

/-- What does not tell of a loss tells of a rebuild or of an attempt at one. -/
theorem rebuild_of_not_isInvalidated {event : SolverEvent} (h : event.isInvalidated = false) :
    event = .rebuilt ∨ ∃ cause, event = .rebuildFailed cause := by
  cases event <;> simp_all [isInvalidated]

end SolverEvent

/-! ## Rounds -/

/-- One loss of the solver. -/
def losses : Language SolverEvent := {w | ∃ cause, w = [.invalidated cause]}

/-- One failed rebuild. -/
def failures : Language SolverEvent := {w | ∃ cause, w = [.rebuildFailed cause]}

/-- One rebuild. -/
def repairs : Language SolverEvent := {[.rebuilt]}

/-- From a loss to the rebuild that ends it. -/
def rounds : Language SolverEvent := losses * failures∗ * repairs

/-- How events follow one another, and whether there is a solver after them. -/
inductive Course : Bool → List SolverEvent → Prop where
  | start : Course true []
  | lose {events : List SolverEvent} (cause : SolverError) :
      Course true events → Course false (events ++ [.invalidated cause])
  | fail {events : List SolverEvent} (cause : SolverError) :
      Course false events → Course false (events ++ [.rebuildFailed cause])
  | rebuild {events : List SolverEvent} :
      Course false events → Course true (events ++ [.rebuilt])

namespace Course

variable {live : Bool} {events : List SolverEvent}

/-- There is a solver exactly between two rounds. -/
theorem mem_rounds (h : Course live events) :
    events ∈ if live then rounds∗ else rounds∗ * (losses * failures∗) := by
  induction h with
  | start => exact Language.nil_mem_kstar rounds
  | lose cause _ ih =>
    have hloss : [.invalidated cause] ∈ losses := ⟨cause, rfl⟩
    exact Language.append_mem_mul ih
      (Language.append_mem_mul hloss (Language.nil_mem_kstar failures))
  | fail cause _ ih =>
    obtain ⟨before, hbefore, round, hround, rfl⟩ := Language.mem_mul.1 ih
    obtain ⟨loss, hloss, failed, hfailed, rfl⟩ := Language.mem_mul.1 hround
    have hfailure : [.rebuildFailed cause] ∈ failures := ⟨cause, rfl⟩
    have hagain : failed ++ [.rebuildFailed cause] ∈ failures∗ :=
      Set.mem_of_mem_of_subset (Language.append_mem_mul hfailed hfailure)
        (kstar_mul_le_kstar (a := failures))
    simpa using Language.append_mem_mul hbefore (Language.append_mem_mul hloss hagain)
  | rebuild _ ih =>
    obtain ⟨before, hbefore, round, hround, rfl⟩ := Language.mem_mul.1 ih
    have hended : round ++ [.rebuilt] ∈ rounds := Language.append_mem_mul hround rfl
    rw [List.append_assoc]
    exact Set.mem_of_mem_of_subset (Language.append_mem_mul hbefore hended)
      (kstar_mul_le_kstar (a := rounds))

/-- Events stop at any point of a round. -/
theorem prefix_rounds (h : Course live events) : ∃ w ∈ rounds∗, events <+: w := by
  cases live with
  | true => exact ⟨events, h.mem_rounds, List.prefix_rfl⟩
  | false => exact ⟨events ++ [.rebuilt], h.rebuild.mem_rounds, List.prefix_append _ _⟩

/-- Losses and rebuilds balance, but for the one loss that is not made up for. -/
theorem countP_isInvalidated (h : Course live events) :
    events.countP SolverEvent.isInvalidated
      = events.countP SolverEvent.isRebuilt + if live then 0 else 1 := by
  induction h with
  | start => rfl
  | lose cause _ ih | fail cause _ ih | rebuild _ ih =>
    simp_all [List.countP_append, SolverEvent.isInvalidated, SolverEvent.isRebuilt]

end Course

/-! ## Health as a tally -/

namespace Health

/-- The health after one more event. -/
def note (h : Health) : SolverEvent → Health
  | .invalidated cause => { h with invalidations := h.invalidations + 1, lastError := some cause }
  | .rebuilt => { h with rebuilds := h.rebuilds + 1 }
  | .rebuildFailed cause => { h with failedRebuilds := h.failedRebuilds + 1, lastError := some cause }

/-- The health that events add up to. -/
def tally (events : List SolverEvent) : Health := events.foldl note .initial

theorem tally_snoc (events : List SolverEvent) (event : SolverEvent) :
    tally (events ++ [event]) = (tally events).note event :=
  List.foldl_concat _ _ _ _

/-- Each counter counts one sort of events, and the last error is that of the latest event
that has one. -/
theorem tally_eq (events : List SolverEvent) : tally events =
    ⟨events.countP SolverEvent.isInvalidated, events.countP SolverEvent.isRebuilt,
      events.countP SolverEvent.isRebuildFailed, (events.filterMap SolverEvent.cause?).getLast?⟩ := by
  induction events using List.reverseRecOn with
  | nil => rfl
  | append_singleton events event ih =>
    rw [tally_snoc, ih]
    cases event <;>
      simp [note, List.countP_append, SolverEvent.isInvalidated, SolverEvent.isRebuilt,
        SolverEvent.isRebuildFailed, SolverEvent.cause?]

end Health

/-! ## Turns of an engine -/

namespace Engine

section

variable {α : Type}

/-- The engine takes the turn that an event stands for, or none, and reports it to whoever
listens. -/
structure Turns (e e' : Engine α) (event : Option SolverEvent) : Prop where
  /-- Only a live engine loses its solver, and only one without a solver rebuilds it. -/
  before : ∀ ev ∈ event, e.isLive = ev.isInvalidated
  after : e'.isLive = event.elim e.isLive SolverEvent.isRebuilt
  health : e'.health = event.elim e.health e.health.note
  events : e'.journal.events = e.journal.events ++ if e.hooked then event.toList else []
  hooked : e'.hooked = e.hooked

variable {e e' e'' : Engine α} {event event' : Option SolverEvent}

theorem Turns.none_of (hlive : e'.isLive = e.isLive) (hhealth : e'.health = e.health)
    (hevents : e'.journal.events = e.journal.events) (hhooked : e'.hooked = e.hooked) :
    Turns e e' none where
  before _ h := by cases h
  after := hlive
  health := hhealth
  events := by simp [hevents]
  hooked := hhooked

theorem Turns.refl (e : Engine α) : Turns e e none := .none_of rfl rfl rfl rfl

/-- Of two turns in a row only one may be a turn at all. -/
theorem Turns.trans (h : Turns e e' event) (h' : Turns e' e'' event')
    (honce : event = none ∨ event' = none) : Turns e e'' (event.or event') := by
  obtain ⟨hbefore, hafter, hhealth, hevents, hhooked⟩ := h
  obtain ⟨hbefore', hafter', hhealth', hevents', hhooked'⟩ := h'
  rcases honce with rfl | rfl
  · simp only [Option.elim_none, Option.toList_none, ite_self, List.append_nil]
      at hafter hhealth hevents
    rw [hafter] at hbefore' hafter'
    rw [hhealth] at hhealth'
    rw [hevents, hhooked] at hevents'
    exact ⟨hbefore', hafter', hhealth', hevents', hhooked'.trans hhooked⟩
  · simp only [Option.elim_none, Option.toList_none, ite_self, List.append_nil]
      at hafter' hhealth' hevents'
    rw [Option.or_none]
    exact ⟨hbefore, hafter'.trans hafter, hhealth'.trans hhealth, hevents'.trans hevents,
      hhooked'.trans hhooked⟩

/-- What is done without a solver cannot lose one. -/
theorem Turns.eq_none (h : Turns e e' event) (hdead : e.isLive = false)
    (hloss : ∀ ev ∈ event, ev.isInvalidated = true) : event = none := by
  cases event with
  | none => rfl
  | some ev =>
    have hlive := h.before ev rfl
    rw [hdead, hloss ev rfl] at hlive
    cases hlive

/-- A loss is seen by what becomes of the solver. -/
theorem Turns.eq_none_iff (h : Turns e e' event) (hloss : ∀ ev ∈ event, ev.isInvalidated = true) :
    event = none ↔ e'.isLive = e.isLive := by
  constructor
  · rintro rfl
    exact h.after
  · intro hsame
    cases event with
    | none => rfl
    | some ev =>
      have hlost : e'.isLive = false :=
        h.after.trans (SolverEvent.isRebuilt_of_isInvalidated (hloss ev rfl))
      have hlive := (h.before ev rfl).trans (hloss ev rfl)
      rw [hlost, hlive] at hsame
      cases hsame

theorem invalidate_turns (hlive : e.isLive = true) (cause : SolverError) :
    Turns e (e.invalidate cause) (some (.invalidated cause)) := by
  refine ⟨fun ev hev => ?_, ?_, invalidate_health cause e, ?_, ?_⟩
  · cases hev
    exact hlive
  · rw [isLive, invalidate_solver]
    rfl
  all_goals cases hhooked : e.hooked <;>
    simp [invalidate, emit, log, Journal.report, Journal.write, hhooked]

theorem adopt_turns (hdead : e.isLive = false) (s : Solver α) :
    Turns e (e.adopt s) (some .rebuilt) := by
  refine ⟨fun ev hev => ?_, ?_, adopt_health s e, ?_, ?_⟩
  · cases hev
    exact hdead
  · rw [isLive, (adopt_fields s e).2.2.2.2.1]
    rfl
  all_goals cases hhooked : e.hooked <;>
    simp [adopt, emit, log, Journal.report, Journal.write, hhooked]

theorem failRebuild_turns (hdead : e.isLive = false) (cause : SolverError) :
    Turns e (e.failRebuild cause) (some (.rebuildFailed cause)) := by
  refine ⟨fun ev hev => ?_, ?_, failRebuild_health cause e, ?_, ?_⟩
  · cases hev
    exact hdead
  · rw [isLive, (failRebuild_fields cause e).2.2.2.2]
    exact hdead
  all_goals
    cases hhooked : e.hooked <;> simp [failRebuild, emit, log, Journal.report, Journal.write, hhooked]

end

variable {α : Type} [Scalar α] {e : Engine α}

/-! ### Mutations -/

/-- A write loses the solver or leaves things as they are. -/
theorem write_turns (e : Engine α) (w : Write α) :
    ∃ event, Turns e (e.write w) event ∧ ∀ ev ∈ event, ev.isInvalidated = true := by
  obtain ⟨hsolver, -, -, hhealth, hhooked, hjournal⟩ := w.record_rest e
  have hrecord : Turns e (w.record e) none :=
    .none_of (by rw [isLive, hsolver]; rfl) hhealth (by rw [hjournal]) hhooked
  unfold Engine.write
  rcases (w.record e).apply_cases (w.change e) with
    ⟨-, h⟩ | ⟨s, s', hs, -, h⟩ | ⟨s, cause, s', hs, -, h⟩
  · rw [h]
    exact ⟨none, hrecord, by simp⟩
  · have hkept : Turns (w.record e) { w.record e with solver := some s' } none :=
      .none_of (by rw [isLive, isLive, hs]; rfl) rfl rfl rfl
    rw [h]
    exact ⟨none, hrecord.trans hkept (.inl rfl), by simp⟩
  · have hlost := invalidate_turns (e := w.record e) (by rw [isLive, hs]; rfl) cause
    rw [h]
    exact ⟨some (.invalidated cause), hrecord.trans hlost (.inl rfl),
      by simp [SolverEvent.isInvalidated]⟩

/-- Any number of writes lose the solver at most once. -/
theorem writeAll_turns (e : Engine α) (ws : List (Write α)) :
    ∃ event, Turns e (e.writeAll ws) event ∧ ∀ ev ∈ event, ev.isInvalidated = true := by
  induction ws generalizing e with
  | nil => exact ⟨none, .refl e, by simp⟩
  | cons w ws ih =>
    obtain ⟨event, hturn, hloss⟩ := e.write_turns w
    obtain ⟨event', hturn', hloss'⟩ := ih (e.write w)
    have honce : event = none ∨ event' = none := by
      cases event with
      | none => exact .inl rfl
      | some ev =>
        have hdead : (e.write w).isLive = false :=
          hturn.after.trans (SolverEvent.isRebuilt_of_isInvalidated (hloss ev rfl))
        exact .inr (hturn'.eq_none hdead hloss')
    refine ⟨event.or event', hturn.trans hturn' honce, fun ev hev => ?_⟩
    rcases Option.or_eq_some_iff.1 hev with hev | ⟨-, hev⟩
    · exact hloss ev hev
    · exact hloss' ev hev

/-! ### Reads -/

theorem ensureLive_turns (e : Engine α) :
    ∃ event, Turns e e.ensureLive event ∧ ∀ ev ∈ event, ev.isInvalidated = false := by
  rcases e.ensureLive_cases with ⟨-, h⟩ | ⟨hnone, s, -, h⟩ | ⟨hnone, cause, -, h⟩
  · rw [h]
    exact ⟨none, .refl e, by simp⟩
  · rw [h]
    exact ⟨_, adopt_turns (by rw [isLive, hnone]; rfl) s, by simp [SolverEvent.isInvalidated]⟩
  · rw [h]
    exact ⟨_, failRebuild_turns (by rw [isLive, hnone]; rfl) cause, by simp [SolverEvent.isInvalidated]⟩

theorem readValues_turns (e : Engine α) : Turns e e.readValues none := by
  rcases e.readValues_cases with ⟨-, h⟩ | ⟨s, -, hs, h⟩
  · rw [h]
    exact .refl e
  · rw [h]
    exact .none_of (by rw [isLive, isLive, hs]; rfl) rfl rfl rfl

/-- A read rebuilds the solver, fails to, or leaves things as they are. -/
theorem refresh_turns (e : Engine α) :
    ∃ event, Turns e e.refresh event ∧ ∀ ev ∈ event, ev.isInvalidated = false := by
  obtain ⟨event, hturn, hrebuild⟩ := e.ensureLive_turns
  have hread := hturn.trans e.ensureLive.readValues_turns (.inr rfl)
  rw [Option.or_none] at hread
  exact ⟨event, hread, hrebuild⟩

/-! ### Calls -/

omit [Scalar α] in
theorem Command.isRead_iff {c : Command α} : c.isRead = true ↔ ∃ x, c = .read x := by
  cases c <;> simp [isRead]

/-- The events that a call may report. -/
def Command.MayReport (c : Command α) : SolverEvent → Prop
  | .invalidated _ => c.isMutation = true
  | .rebuilt | .rebuildFailed _ => c.isRead = true

/-- A call takes one turn at most, of a kind that goes with it. -/
theorem Registered.perform_turns (h : e.Registered) {c : Command α}
    (hc : c ≠ .stopListening) (hhooked : e.hooked = true) :
    ∃ event, Turns e (c.perform e).2 event ∧ ∀ ev ∈ event, c.MayReport ev := by
  have hstep := h.step c
  generalize (c.perform e).2 = e' at hstep ⊢
  cases hstep with
  | stay => exact ⟨none, .refl e, by simp⟩
  | @carry _ w ws hmutation _ _ =>
    obtain ⟨event, hturn, hloss⟩ := e.writeAll_turns (w :: ws)
    have hmarked : Turns (e.writeAll (w :: ws)) (e.writeAll (w :: ws)).markChanged none :=
      .none_of rfl rfl rfl rfl
    refine ⟨event, Option.or_none (o := event) ▸ hturn.trans hmarked (.inr rfl), fun ev hev => ?_⟩
    obtain ⟨cause, rfl⟩ := SolverEvent.isInvalidated_iff.1 (hloss ev hev)
    exact hmutation
  | read x =>
    obtain ⟨event, hturn, hrebuild⟩ := e.refresh_turns
    refine ⟨event, hturn, fun ev hev => ?_⟩
    rcases SolverEvent.rebuild_of_not_isInvalidated (hrebuild ev hev) with rfl | ⟨cause, rfl⟩ <;> rfl
  | takeDirty => exact ⟨none, .none_of rfl rfl rfl rfl, by simp⟩
  | listen => exact ⟨none, .none_of rfl rfl rfl hhooked.symm, by simp⟩
  | stopListening => exact absurd rfl hc

end Engine

end BoxLayout
