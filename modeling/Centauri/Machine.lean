import Mathlib.Data.List.Basic

/-! Labelled machines and their finite runs. A machine decides which events are
enabled and computes the next state; every interleaving is a list of events. -/

structure Machine (S E : Type) where
  Enabled : S → E → Prop
  next : S → E → S

namespace Machine

/-- A finite run lists its events in order. Nothing forces a run to continue. -/
inductive Run (m : Machine S E) : S → List E → S → Prop where
  | nil : Run m s [] s
  | cons : m.Enabled s event → Run m (m.next s event) rest final →
      Run m s (event :: rest) final

/-- The same machine with a condition imposed on every step, read before it. -/
def restrict (m : Machine S E) (guard : S → E → Prop) : Machine S E :=
  ⟨fun s event => m.Enabled s event ∧ guard s event, m.next⟩

/-- The state a list of events leads to, enabled or not. -/
def after (m : Machine S E) (s : S) (trace : List E) : S := trace.foldl m.next s

/-- Every event of the list is enabled when its turn comes. -/
def Allows (m : Machine S E) : S → List E → Prop
  | _, [] => True
  | s, event :: rest => m.Enabled s event ∧ m.Allows (m.next s event) rest

instance decidableAllows (m : Machine S E) [∀ s event, Decidable (m.Enabled s event)] :
    ∀ s trace, Decidable (m.Allows s trace)
  | _, [] => inferInstanceAs (Decidable True)
  | s, event :: rest =>
    have := decidableAllows m (m.next s event) rest
    inferInstanceAs (Decidable (m.Enabled s event ∧ m.Allows (m.next s event) rest))

instance (m : Machine S E) (guard : S → E → Prop) [∀ s event, Decidable (m.Enabled s event)]
    [∀ s event, Decidable (guard s event)] (s : S) (event : E) :
    Decidable ((m.restrict guard).Enabled s event) :=
  inferInstanceAs (Decidable (m.Enabled s event ∧ guard s event))

variable {m : Machine S E}

theorem run_of_allows (allowed : m.Allows s trace) : m.Run s trace (m.after s trace) := by
  induction trace generalizing s with
  | nil => exact .nil
  | cons event rest ih => exact .cons allowed.1 (ih allowed.2)

theorem Run.unrestrict {guard : S → E → Prop} (run : (m.restrict guard).Run s trace t) : m.Run s trace t := by
  induction run with
  | nil => exact .nil
  | cons enabled _ ih => exact .cons enabled.1 ih

theorem Run.append (early : m.Run s xs u) (late : m.Run u ys t) : m.Run s (xs ++ ys) t := by
  induction early with
  | nil => exact late
  | cons enabled _ ih => exact .cons enabled (ih late)

theorem Run.snoc (run : m.Run s xs middle) (enabled : m.Enabled middle event) :
    m.Run s (xs ++ [event]) (m.next middle event) :=
  run.append (.cons enabled .nil)

/-- An invariant of every step is an invariant of every run. -/
theorem Run.invariant (Inv : S → Prop)
    (kept : ∀ u label, Inv u → m.Enabled u label → Inv (m.next u label))
    (run : m.Run s trace t) (start : Inv s) : Inv t := by
  induction run with
  | nil => exact start
  | cons enabled _ ih =>
    apply ih
    exact kept _ _ start enabled

/-- An invariant that only the events of the trace have to keep. -/
theorem Run.invariant_on (Inv : S → Prop) (run : m.Run s trace t)
    (kept : ∀ u label, label ∈ trace → Inv u → m.Enabled u label → Inv (m.next u label))
    (start : Inv s) : Inv t := by
  induction run with
  | nil => exact start
  | cons enabled _ ih =>
    apply ih
    · exact fun u label member => kept u label (List.mem_cons_of_mem _ member)
    · exact kept _ _ List.mem_cons_self start enabled

/-- An invariant that speaks of the events taken so far. -/
theorem Run.history (Inv : List E → S → Prop)
    (kept : ∀ past u label, Inv past u → m.Enabled u label → Inv (past ++ [label]) (m.next u label))
    (run : m.Run s trace t) (start : Inv past s) : Inv (past ++ trace) t := by
  induction run generalizing past with
  | nil => simpa using start
  | cons enabled _ ih => simpa using ih (kept past _ _ start enabled)

/-- What the steps of a trace show to an observer, in order. -/
def shown (m : Machine S E) (observe : S → E → Option B) : S → List E → List B
  | _, [] => []
  | s, event :: rest => (observe s event).toList ++ m.shown observe (m.next s event) rest

/-- Counters that every step raises by what it shows count what a run shows. -/
theorem Run.counted [BEq B] {observe : S → E → Option B} (counter : S → B → Nat)
    (raised : ∀ u label b, m.Enabled u label →
      counter (m.next u label) b = counter u b + (observe u label).toList.count b)
    (run : m.Run s trace t) (b : B) : counter t b = counter s b + (m.shown observe s trace).count b := by
  induction run with
  | nil => simp [shown]
  | cons enabled _ ih =>
    rw [ih,raised _ _ _ enabled,shown,List.count_append]
    omega

/-- The state in which an event of the trace was taken. -/
theorem Run.split (run : m.Run s (xs ++ event :: ys) final) :
    ∃ before, m.Run s xs before ∧ m.Enabled before event ∧
      m.Run (m.next before event) ys final := by
  induction xs generalizing s with
  | nil =>
    cases run with
    | cons enabled rest => exact ⟨s,.nil,enabled,rest⟩
  | cons first xs ih =>
    cases run with
    | cons enabled rest =>
      obtain ⟨before,earlier,taken,later⟩ := ih rest
      exact ⟨before,.cons enabled earlier,taken,later⟩

/-- Of the events of a kind, the last. -/
theorem last_where {p : E → Prop} {trace : List E} (some : ∃ event ∈ trace, p event) :
    ∃ us event vs, trace = us ++ event :: vs ∧ p event ∧ ∀ later ∈ vs, ¬p later := by
  induction trace with
  | nil => simp at some
  | cons first rest ih =>
    by_cases later : ∃ event ∈ rest, p event
    · obtain ⟨us,event,vs,rfl,here,none⟩ := ih later
      exact ⟨first :: us,event,vs,rfl,here,none⟩
    · obtain ⟨event,member,here⟩ := some
      rcases List.mem_cons.mp member with rfl | member
      · exact ⟨[],event,rest,rfl,here,fun event member found => later ⟨event,member,found⟩⟩
      · exact absurd ⟨event,member,here⟩ later

def Reaches (m : Machine S E) (s final : S) : Prop := ∃ trace, m.Run s trace final

theorem Reaches.refl : m.Reaches s s := ⟨[],.nil⟩

theorem Reaches.single (enabled : m.Enabled s event) : m.Reaches s (m.next s event) :=
  ⟨[event],.cons enabled .nil⟩

theorem Reaches.unrestrict {guard : S → E → Prop} (reaches : (m.restrict guard).Reaches s final) :
    m.Reaches s final := by
  obtain ⟨trace,run⟩ := reaches
  exact ⟨trace,run.unrestrict⟩

theorem Reaches.trans (first : m.Reaches s middle) (second : m.Reaches middle final) :
    m.Reaches s final := by
  obtain ⟨xs,run⟩ := first
  obtain ⟨ys,rest⟩ := second
  exact ⟨xs ++ ys,run.append rest⟩

end Machine

inductive Halts (step : S → Option S) : S → Prop where
  | stop : step s = none → Halts step s
  | next : step s = some t → Halts step t → Halts step s

/-- What can always go on in one way does not stop. -/
theorem Halts.not_of_invariant {step : S → Option S} (Inv : S → Prop)
    (kept : ∀ s, Inv s → ∃ t, step s = some t ∧ Inv t) (start : Inv s) : ¬Halts step s := by
  intro halts
  induction halts with
  | stop stopped =>
    obtain ⟨t,moved,_⟩ := kept _ start
    simp [stopped] at moved
  | next moved _ ih =>
    obtain ⟨t,moved',later⟩ := kept _ start
    rw [moved] at moved'
    cases moved'
    exact ih later
