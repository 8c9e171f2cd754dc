import ClHost.Proofs.Array.Tracking

/-!
# Calls on a shared list of events

Views of an array share its list of events. Calls through any of them leave no event behind: what was added is what was
waited for, followed by what the list holds.
-/

namespace ClHost

open List World EventList

inductive EventCall where
  | add (a : DeviceArray) (e : EventId)
  | finish (a : DeviceArray)

namespace EventCall

def array : EventCall → DeviceArray
  | add a _ => a
  | finish a => a

def event? : EventCall → Option EventId
  | add _ e => some e
  | finish _ => none

def run : EventCall → Host Unit
  | add a e => Host.addEvent a e
  | finish a => Host.finishArray a

end EventCall

/-- The log grew by waits only, for the first of the events that were added. List `i` holds the other ones. -/
structure World.Kept (w : World) (i : Nat) (added : List EventId) (w' : World) : Prop where
  present : i < w'.eventLists.size
  bounded : (w'.listed i).length ≤ 12
  waited : ∃ waits : List (List EventId), w'.log.toList = w.log.toList ++ waits.map .wait ∧ added = waits.flatten ++ w'.listed i

variable {w w' : World} {i : Nat} {added waited kept more : List EventId}

lemma EventList.add_eq {events : List EventId} (h : events.length ≤ 12) (e : EventId) :
    events ++ [e] = (add events e).1 ++ (add events e).2 ∧ (add events e).2.length ≤ 12 := by
  by_cases hfull : (events ++ [e]).length > limit
  · rw [add, if_pos hfull, take_append_drop, length_drop, length_append, length_singleton]
    exact ⟨rfl, by simp only [batch]; omega⟩
  · rw [add, if_neg hfull]
    exact ⟨rfl, Nat.not_lt.1 hfull⟩

lemma World.Kept.split (h : w.Kept i added w') (hlist : w'.listed i ++ more = waited ++ kept) (hkept : kept.length ≤ 12) :
    w.Kept i (added ++ more) { w' with
      log := if waited.isEmpty then w'.log else w'.log.push (.wait waited)
      eventLists := w'.eventLists.setIfInBounds i kept } := by
  obtain ⟨waits, hlog, hadded⟩ := h.waited
  have hlisted (log : Array Record) :
      World.listed { w' with log, eventLists := w'.eventLists.setIfInBounds i kept } i = kept := by
    simp [World.listed, h.present]
  refine ⟨by simpa using h.present, by rwa [hlisted], ?_⟩
  rw [hlisted, hadded, append_assoc, hlist]
  cases waited with
  | nil => exact ⟨waits, hlog, rfl⟩
  | cons e es => exact ⟨waits ++ [e :: es], by simp [hlog], by simp⟩

lemma EventCall.leads_run (h : w.Kept i added w') {c : EventCall} (hc : c.array.events = i) :
    Leads c.run (fun _ => w.Kept i (added ++ c.event?.toList)) Never w' := by
  subst hc
  cases c with
  | add a e =>
    obtain ⟨hlist, hlen⟩ := add_eq h.bounded e
    exact Host.leads_addEvent.2 (h.split hlist hlen)
  | finish a =>
    rw [run, Host.finishArray, leads_bind, Host.eventsOf, Host.leads_eventList, ← World.listed]
    have hlist : w'.listed a.events ++ [] = w'.listed a.events ++ [] := rfl
    have hfin := h.split hlist (Nat.zero_le 12)
    cases hevs : w'.listed a.events with
    | nil =>
      rw [event?, Option.toList_none, append_nil]
      exact h
    | cons =>
      rw [hevs] at hfin
      exact hfin

lemma EventCall.leads_forM (h : w.Kept i added w') {calls : List EventCall} (hcalls : ∀ c ∈ calls, c.array.events = i) :
    Leads (calls.forM run) (fun _ => w.Kept i (added ++ calls.filterMap event?)) Never w' := by
  induction calls generalizing w' added with
  | nil => simpa using h
  | cons c calls ih =>
    refine leads_bind.2 ((leads_run h (hcalls c mem_cons_self)).mono fun _ w' hw => ?_)
    have hrest := ih hw fun c hc => hcalls c (mem_cons_of_mem _ hc)
    cases c <;> simpa [event?, filterMap_cons] using hrest

/-- **No event is lost.** After any calls through arrays with the same list of events, which was empty, the list holds at most
twelve events. The calls raise nothing; they waited for some of the events, and these and the events of the list together
are the events that were added, in that order. -/
theorem events_kept_or_waited {calls : List EventCall} (hi : i < w.eventLists.size) (hemp : w.listed i = [])
    (hcalls : ∀ c ∈ calls, c.array.events = i) :
    Leads (calls.forM EventCall.run)
      (fun _ w' => (w'.listed i).length ≤ 12 ∧ ∃ waits : List (List EventId),
        w'.log.toList = w.log.toList ++ waits.map .wait ∧
          calls.filterMap EventCall.event? = waits.flatten ++ w'.listed i)
      (fun _ _ => False) w := by
  have hst : w.Kept i [] w := ⟨hi, by simp [hemp], [], by simp [hemp]⟩
  exact (EventCall.leads_forM hst hcalls).mono fun _ w' hw => ⟨hw.bounded, hw.waited⟩

theorem events_kept_or_waited_transposed :
    let a : DeviceArray := { (default : DeviceArray) with shape := [2, 3], strides := [12, 4] }
    let calls := .finish a :: (range 13).map (.add a.transposed)
    let w : World := { eventLists := #[[]] }
    0 < w.eventLists.size ∧ w.listed 0 = [] ∧ (∀ c ∈ calls, c.array.events = 0) ∧
      Leads (calls.forM EventCall.run)
        (fun _ w' => (w'.listed 0).length ≤ 12 ∧ ∃ waits : List (List EventId),
          w'.log.toList = w.log.toList ++ waits.map .wait ∧
            calls.filterMap EventCall.event? = waits.flatten ++ w'.listed 0)
        (fun _ _ => False) w := by
  intro a calls w
  have hcalls : ∀ c ∈ calls, c.array.events = 0 := by
    intro c hc
    rcases mem_cons.1 hc with rfl | hc
    · rfl
    · obtain ⟨e, -, rfl⟩ := mem_map.1 hc
      rfl
  have hi : 0 < w.eventLists.size := Nat.zero_lt_one
  have hemp : w.listed 0 = [] := rfl
  refine ⟨hi, hemp, hcalls, ?_⟩
  clear_value calls w
  exact events_kept_or_waited hi hemp hcalls

end ClHost
