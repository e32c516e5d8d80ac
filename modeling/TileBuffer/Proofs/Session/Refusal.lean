import TileBuffer.Proofs.Report
import TileBuffer.Proofs.Session.Answer

namespace TileBuffer

variable {σ ε : Type}

namespace Session

/-- A flush of the session offers `sent` up to the first refusal. It goes through, with this
report, just when there is none; else the cells stay, sorted. -/
structure Flushes (s : Session σ) (tag : UInt8) (sink : Sink σ ε) (sent : List Emission)
    (report : Report) : Prop where
  ends : sink.Takes sent s.sink ∨ ∃ calls reason, sink.Stops sent s.sink calls reason
  ok_iff : (∃ r, (s.flush tag sink).1 = .ok r) ↔ sink.Takes sent s.sink
  taken : sink.Takes sent s.sink →
    s.flush tag sink = (.ok (some report),
      ⟨⟨s.buffer.config, ⟨s.buffer.store.capacity, #[]⟩, s.buffer.counters.record report⟩,
        sink.after sent s.sink, (s.flush tag sink).2.log⟩) ∧
    (s.answer (.flush tag sink)).calls = sent
  stopped : ∀ calls reason, sink.Stops sent s.sink calls reason →
    (∃ sorted, StablySorted s.buffer.config.grid s.buffer.store.cells.toList sorted ∧
      s.flush tag sink = (.error (.refused reason),
        ⟨⟨s.buffer.config, ⟨s.buffer.store.capacity, sorted.toArray⟩, s.buffer.counters⟩,
          sink.after calls s.sink, (s.flush tag sink).2.log⟩)) ∧
    (s.answer (.flush tag sink)).calls = calls

section Placed

variable {s : Session σ} (hg : s.buffer.config.grid.Sound) (hne : s.buffer.isEmpty = false)
  (hin : ∀ c ∈ s.buffer.store.cells, c.Inside s.buffer.config.grid) (tag : UInt8) {sink : Sink σ ε}
include hg hne hin

theorem flush_of_takes (h : sink.Takes (s.buffer.plan tag).emissions s.sink) :
    s.flush tag sink = (.ok (some (s.buffer.plan tag).report),
      ⟨s.buffer.flushed (s.buffer.plan tag).report,
        sink.after (s.buffer.plan tag).emissions s.sink, (s.flush tag sink).2.log⟩) := by
  rw [Buffer.plan] at h ⊢
  rw [flush, flush_eq hg hne hin]
  dsimp only
  rw [h.deliver_eq]
  rfl

theorem flush_of_stops {calls : List Emission} {reason : ε}
    (h : sink.Stops (s.buffer.plan tag).emissions s.sink calls reason) :
    s.flush tag sink = (.error (.refused reason),
      ⟨s.buffer.withCells (s.buffer.plan tag).cells.toArray,
        sink.after calls s.sink, (s.flush tag sink).2.log⟩) := by
  rw [Buffer.plan] at h ⊢
  rw [flush, flush_eq hg hne hin]
  dsimp only
  rw [h.deliver_eq]
  rfl

theorem calls_flush : (s.answer (.flush tag sink)).calls =
    sink.offered .ok (s.buffer.plan tag).emissions s.sink := by
  rw [answer_flush, flushCalls_eq hg hne hin]
  rfl

theorem flushes_plan (sink : Sink σ ε) :
    s.Flushes tag sink (s.buffer.plan tag).emissions (s.buffer.plan tag).report := by
  have hcalls : (s.answer (.flush tag sink)).calls = _ := calls_flush hg hne hin tag
  have hends := sink.takes_or_stops (s.buffer.plan tag).emissions s.sink
  refine ⟨hends, ?_, ?_, ?_⟩
  · constructor
    · rintro ⟨r, hr⟩
      rcases hends with h | ⟨calls, reason, h⟩
      · exact h
      · rw [flush_of_stops hg hne hin tag h] at hr
        cases hr
    · intro h
      rw [flush_of_takes hg hne hin tag h]
      exact ⟨_, rfl⟩
  · intro h
    exact ⟨flush_of_takes hg hne hin tag h, hcalls.trans h.offered_eq⟩
  · intro calls reason h
    refine ⟨⟨(s.buffer.plan tag).cells, ?_, flush_of_stops hg hne hin tag h⟩, ?_⟩
    · exact stablySorted_sortByTile _ _ _
    · exact hcalls.trans h.offered_eq

end Placed

end Session

end TileBuffer
