import Mathlib.Tactic
import TileBuffer.Sink

namespace TileBuffer

variable {σ ε α : Type}

namespace Sink

def Accepting (sink : Sink σ ε) : Prop := ∀ e s, (sink.emit e s).1 = .ok ()

/-- The same sink, noting in order what it is offered, refused or not. -/
def watch (sink : Sink σ ε) : Sink (σ × List Emission) ε where
  emit e s :=
    let (answer, s') := sink.emit e s.1
    (answer, s', s.2 ++ [e])

def offered (sink : Sink σ ε) (make : α → Except Fault Emission) (xs : List α) (s : σ) :
    List Emission :=
  (sink.watch.deliver make xs (s, [])).2.2

variable {sink : Sink σ ε} {make : α → Except Fault Emission} {xs : List α}

theorem emit_watch (e : Emission) (s : σ) (seen : List Emission) :
    sink.watch.emit e (s, seen) = ((sink.emit e s).1, (sink.emit e s).2, seen ++ [e]) := rfl

theorem deliver_watch (sink : Sink σ ε) (make : α → Except Fault Emission) (xs : List α) (s : σ)
    (seen : List Emission) : sink.watch.deliver make xs (s, seen) =
      ((sink.deliver make xs s).1, (sink.deliver make xs s).2, seen ++ sink.offered make xs s) := by
  induction xs generalizing s seen with
  | nil => simp [deliver, offered]
  | cons x xs ih =>
    simp only [offered, deliver]
    cases make x with
    | error fault => simp
    | ok e =>
      simp only [emit_watch]
      rcases sink.emit e s with ⟨reason | ⟨⟩, s'⟩
      · simp
      · simp only [ih, List.append_assoc, List.nil_append]

theorem deliver_eq {f : α → Emission} (h : ∀ x ∈ xs, make x = .ok (f x)) (s : σ) :
    sink.deliver make xs s = sink.deliver .ok (xs.map f) s := by
  induction xs generalizing s with
  | nil => rfl
  | cons x xs ih =>
    obtain ⟨hx, hxs⟩ := List.forall_mem_cons.mp h
    simp only [deliver, List.map_cons, hx, ih hxs]

theorem Accepting.watch (h : sink.Accepting) : sink.watch.Accepting := fun e s ↦ h e s.1

theorem offered_of_deliver_ok {es : List Emission} {s : σ}
    (h : (sink.deliver .ok es s).1 = .ok ()) : sink.offered .ok es s = es := by
  induction es generalizing s with
  | nil => rfl
  | cons e es ih =>
    simp only [offered, deliver, emit_watch] at h ⊢
    rcases hr : sink.emit e s with ⟨reason | ⟨⟩, s'⟩
    · simp [hr] at h
    · rw [hr] at h
      dsimp only at h ⊢
      rw [deliver_watch, ih h]
      rfl

theorem collect_accepting : collect.Accepting := fun _ _ ↦ rfl

theorem deliver_collect (es : List Emission) (kept : Array Emission) :
    (collect.deliver .ok es kept).2 = kept ++ es.toArray := by
  induction es generalizing kept with
  | nil => simp [deliver]
  | cons e es ih =>
    rw [deliver]
    exact (ih (kept.push e)).trans (by simp)

section Answers

def after (sink : Sink σ ε) (es : List Emission) (s : σ) : σ :=
  es.foldl (fun s e ↦ (sink.emit e s).2) s

def Takes (sink : Sink σ ε) : List Emission → σ → Prop
  | [], _ => True
  | e :: es, s => (sink.emit e s).1 = .ok () ∧ sink.Takes es (sink.emit e s).2

/-- The last of the emissions `calls` is the first of `es` that is refused. -/
def Stops (sink : Sink σ ε) (es : List Emission) (s : σ) (calls : List Emission) (reason : ε) :
    Prop :=
  ∃ taken e rest, es = taken ++ e :: rest ∧ calls = taken ++ [e] ∧ sink.Takes taken s ∧
    (sink.emit e (sink.after taken s)).1 = .error reason

variable {e : Emission} {es calls : List Emission} {s : σ} {reason : ε}

theorem after_append (es rest : List Emission) (s : σ) :
    sink.after (es ++ rest) s = sink.after rest (sink.after es s) := List.foldl_append

theorem takes_append {rest : List Emission} :
    sink.Takes (es ++ rest) s ↔ sink.Takes es s ∧ sink.Takes rest (sink.after es s) := by
  induction es generalizing s with
  | nil => exact (iff_of_eq (true_and _)).symm
  | cons e es ih =>
    rw [List.cons_append, Takes, Takes, ih, and_assoc]
    rfl

theorem deliver_cons_of_ok (h : (sink.emit e s).1 = .ok ()) (es : List Emission) :
    sink.deliver .ok (e :: es) s = sink.deliver .ok es (sink.emit e s).2 := by
  rw [deliver]
  rcases hr : sink.emit e s with ⟨answer, s'⟩
  rw [hr] at h
  cases h
  simp only [hr]

theorem deliver_cons_of_error (h : (sink.emit e s).1 = .error reason) (es : List Emission) :
    sink.deliver .ok (e :: es) s = (.error (.refused reason), (sink.emit e s).2) := by
  rw [deliver]
  rcases hr : sink.emit e s with ⟨answer, s'⟩
  rw [hr] at h
  cases h
  simp only [hr]

theorem Takes.deliver_append (h : sink.Takes es s) (rest : List Emission) :
    sink.deliver .ok (es ++ rest) s = sink.deliver .ok rest (sink.after es s) := by
  induction es generalizing s with
  | nil => rfl
  | cons e es ih =>
    rw [List.cons_append, deliver_cons_of_ok h.1, ih h.2]
    rfl

theorem Takes.deliver_eq (h : sink.Takes es s) :
    sink.deliver .ok es s = (.ok (), sink.after es s) := by
  have hd := h.deliver_append []
  rwa [List.append_nil] at hd

theorem Accepting.takes (h : sink.Accepting) (es : List Emission) (s : σ) : sink.Takes es s := by
  induction es generalizing s with
  | nil => trivial
  | cons e es ih => exact ⟨h e s, ih _⟩

theorem Accepting.deliver_eq_ok (h : sink.Accepting) (es : List Emission) (s : σ) :
    (sink.deliver .ok es s).1 = .ok () := congrArg Prod.fst (h.takes es s).deliver_eq

theorem Takes.offered_eq (h : sink.Takes es s) : sink.offered .ok es s = es :=
  offered_of_deliver_ok (congrArg Prod.fst h.deliver_eq)

theorem after_watch (sink : Sink σ ε) (es : List Emission) (s : σ) (seen : List Emission) :
    sink.watch.after es (s, seen) = (sink.after es s, seen ++ es) := by
  induction es generalizing s seen with
  | nil => exact congrArg (s, ·) (List.append_nil seen).symm
  | cons e es ih =>
    have h := ih (sink.emit e s).2 (seen ++ [e])
    rwa [List.append_assoc] at h

theorem takes_watch {seen : List Emission} :
    sink.watch.Takes es (s, seen) ↔ sink.Takes es s := by
  induction es generalizing s seen with
  | nil => exact Iff.rfl
  | cons e es ih => exact and_congr_right' ih

theorem stops_watch {seen : List Emission} :
    sink.watch.Stops es (s, seen) calls reason ↔ sink.Stops es s calls reason := by
  simp only [Stops, takes_watch, after_watch, emit_watch]

section Fault

variable {make : α → Except Fault Emission} {f : α → Emission} {front : List α} {x : α}
  {fault : Fault} (hs : sink.Accepting) (hf : ∀ x ∈ front, make x = .ok (f x))
  (hx : make x = .error fault) (back : List α)
include hs hf hx

end Fault

theorem Stops.deliver_eq (h : sink.Stops es s calls reason) :
    sink.deliver .ok es s = (.error (.refused reason), sink.after calls s) := by
  obtain ⟨taken, e, rest, rfl, rfl, ht, he⟩ := h
  rw [ht.deliver_append, deliver_cons_of_error he, after_append]
  rfl

theorem Stops.offered_eq (h : sink.Stops es s calls reason) :
    sink.offered .ok es s = calls := by
  rw [offered, (stops_watch.mpr h).deliver_eq, after_watch, List.nil_append]

theorem takes_or_stops (sink : Sink σ ε) (es : List Emission) (s : σ) :
    sink.Takes es s ∨ ∃ calls reason, sink.Stops es s calls reason := by
  induction es generalizing s with
  | nil => exact .inl trivial
  | cons e es ih =>
    rcases hr : (sink.emit e s).1 with reason | ⟨⟩
    · exact .inr ⟨[e], reason, [], e, es, rfl, rfl, trivial, hr⟩
    · rcases ih (sink.emit e s).2 with h | ⟨calls, reason, taken, d, rest, hes, hcalls, ht, hd⟩
      · exact .inl ⟨hr, h⟩
      · refine .inr ⟨e :: calls, reason, e :: taken, d, rest, ?_, ?_, ⟨hr, ht⟩, hd⟩
        · rw [hes, List.cons_append]
        · rw [hcalls, List.cons_append]

end Answers

end Sink

end TileBuffer
