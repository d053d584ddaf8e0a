import Mathlib.Data.List.Basic
import Mathlib.Data.List.Induction
import Mathlib.Logic.Function.Basic

/-!
# Record layers

A writer makes a record of each message and puts the records one behind the other
on a stream.  A reader takes the stream in pieces of any size, and gives what it
can open of what it has taken.  `OneWay` is one direction of such a connection.
-/

namespace RecordLayer

variable {α : Type*}

/-- The stream of a list of messages.  The records are numbered. -/
def stream (record : Nat → List α → List α) (messages : List (List α)) : List α :=
  (messages.mapIdx record).flatten

theorem stream_concat (record : Nat → List α → List α) (messages : List (List α)) (m : List α) :
    stream record (messages ++ [m]) = stream record messages ++ record messages.length m := by
  rw [stream, List.mapIdx_concat, List.flatten_append, List.flatten_singleton]
  rfl

/-- `record k m` is the `k`-th record, and `opened l` the data of the records that are whole
    in `l`, for any part `l` of a stream. -/
structure Format (α : Type*) where
  record : Nat → List α → List α
  opened : List α → List α
  opened_stream : ∀ messages, opened (stream record messages) = messages.flatten
  opened_prefix : ∀ messages l, l <+: stream record messages → opened l <+: messages.flatten

theorem stream_map (f : α → α) (messages : List (List α)) :
    stream (fun _ m => m.map f) messages = messages.flatten.map f := by
  induction messages using List.reverseRecOn with
  | nil => rfl
  | append_singleton messages m ih =>
    rw [stream_concat, ih, List.flatten_append, List.flatten_singleton, List.map_append]

/-- The format that changes each element for itself, and back. -/
def Format.mask (f : α → α) (hf : Function.Involutive f) : Format α where
  record _ m := m.map f
  opened l := l.map f
  opened_stream messages := by rw [stream_map, List.map_map, hf.comp_self, List.map_id]
  opened_prefix messages l h := by
    rw [stream_map] at h
    have hopened := h.map f
    rwa [List.map_map, hf.comp_self, List.map_id] at hopened

/-- What was written, what of it is on the way, what was taken and what was delivered. -/
structure OneWay (α : Type*) where
  written : List (List α)
  flight : List α
  taken : List α
  delivered : List α

namespace OneWay

variable (R : Format α)

def start : OneWay α := ⟨[], [], [], []⟩

def write (f : OneWay α) (m : List α) : OneWay α :=
  { f with written := f.written ++ [m], flight := f.flight ++ R.record f.written.length m }

/-- The reader takes `n` elements of the stream and delivers `data`. -/
def take (f : OneWay α) (n : Nat) (data : List α) : OneWay α :=
  { f with flight := f.flight.drop n, taken := f.taken ++ f.flight.take n
           delivered := f.delivered ++ data }

/-- Nothing is lost on the way, and what was delivered is what could be opened. -/
structure Ok (f : OneWay α) : Prop where
  kept : stream R.record f.written = f.taken ++ f.flight
  delivered : f.delivered = R.opened f.taken

variable {R} {f : OneWay α}

theorem ok_start : Ok R (start : OneWay α) := by
  have hnil : R.opened [] = [] := R.opened_stream []
  exact ⟨rfl, hnil.symm⟩

theorem Ok.write (h : f.Ok R) (m : List α) : (f.write R m).Ok R := by
  refine ⟨?_, h.delivered⟩
  show stream R.record (f.written ++ [m]) = f.taken ++ (f.flight ++ R.record f.written.length m)
  rw [stream_concat, h.kept, List.append_assoc]

theorem Ok.take (h : f.Ok R) {n : Nat} {data : List α}
    (hdata : R.opened (f.taken ++ f.flight.take n) = R.opened f.taken ++ data) :
    (f.take n data).Ok R := by
  constructor
  · show stream R.record f.written = f.taken ++ f.flight.take n ++ f.flight.drop n
    rw [h.kept, List.append_assoc, List.take_append_drop]
  · show f.delivered ++ data = R.opened (f.taken ++ f.flight.take n)
    rw [hdata, h.delivered]

/-- What was taken, with any part of what comes next, is a part of the stream. -/
theorem Ok.taken_append (h : f.Ok R) {l : List α} (hl : l <+: f.flight) :
    f.taken ++ l <+: stream R.record f.written := by
  rw [h.kept]
  exact (List.prefix_append_right_inj f.taken).mpr hl

theorem Ok.delivered_prefix (h : f.Ok R) : f.delivered <+: f.written.flatten := by
  have hprefix := h.taken_append List.nil_prefix
  rw [List.append_nil] at hprefix
  rw [h.delivered]
  exact R.opened_prefix _ _ hprefix

theorem Ok.delivered_all (h : f.Ok R) (hflight : f.flight = []) :
    f.delivered = f.written.flatten := by
  have hkept := h.kept
  rw [hflight, List.append_nil] at hkept
  rw [h.delivered, ← hkept, R.opened_stream]

end OneWay

end RecordLayer
