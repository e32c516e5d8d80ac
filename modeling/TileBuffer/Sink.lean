import TileBuffer.Emission

namespace TileBuffer

variable {σ ε : Type}

structure Sink (σ ε : Type) where
  emit : Emission → σ → Except ε Unit × σ

inductive Failure (ε : Type)
  | refused (reason : ε)
  | fault (fault : Fault)
deriving DecidableEq

namespace Sink

/-- Makes an emission from each element in turn and hands it to the sink. The first fault and the
first refusal end the delivery; what was accepted before stays accepted. -/
def deliver {α : Type} (sink : Sink σ ε) (make : α → Except Fault Emission) :
    List α → σ → Except (Failure ε) Unit × σ
  | [], s => (.ok (), s)
  | x :: xs, s =>
    match make x with
    | .error fault => (.error (.fault fault), s)
    | .ok emission =>
      match sink.emit emission s with
      | (.ok (), s) => sink.deliver make xs s
      | (.error reason, s) => (.error (.refused reason), s)

def mapRefusal {ε' : Type} (f : ε → ε') (sink : Sink σ ε) : Sink σ ε' where
  emit e s :=
    match sink.emit e s with
    | (.ok (), s) => (.ok (), s)
    | (.error reason, s) => (.error (f reason), s)

def collect : Sink (Array Emission) Empty where
  emit e kept := (.ok (), kept.push e)

/-- Keeps emissions until there are `limit` of them, and refuses the rest. -/
def upTo (limit : Nat) (reason : ε) : Sink (Array Emission) ε where
  emit e kept := if kept.size < limit then (.ok (), kept.push e) else (.error reason, kept)

inductive Disconnected
  | disconnected
deriving DecidableEq

def Disconnected.message : Disconnected → String
  | .disconnected => "sending on a closed channel"

/-- Queues emissions for a receiver. After the receiver has gone nothing is accepted. -/
def channel (closed : Bool) : Sink (Array Emission) Disconnected where
  emit e queue := if closed then (.error .disconnected, queue) else (.ok (), queue.push e)

end Sink

end TileBuffer
