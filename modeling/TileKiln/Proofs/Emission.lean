import TileKiln.Sink

namespace TileKiln

namespace Sink

def Holds (sink : Sink) (bytes : List UInt8) : Prop :=
  bytes.length ≤ sink.room bytes.length

instance (sink : Sink) (bytes : List UInt8) : Decidable (sink.Holds bytes) :=
  inferInstanceAs (Decidable (_ ≤ _))

def push (sink : Sink) (bytes : List UInt8) : Sink :=
  { sink with bytes := sink.bytes ++ bytes.take (sink.room bytes.length) }

theorem size_append (bytes : Array UInt8) (more : List UInt8) :
    (bytes ++ more).size = bytes.size + more.length := by
  rw [← Array.length_toList, Array.toList_appendList, List.length_append, Array.length_toList]

theorem append_append (bytes : Array UInt8) (front back : List UInt8) :
    bytes ++ front ++ back = bytes ++ (front ++ back) :=
  Array.ext' (by simp)

theorem holds_of_unlimited {sink : Sink} (h : sink.capacity = none) (bytes : List UInt8) :
    sink.Holds bytes := by
  simp [Holds, room, h]

theorem holds_iff {sink : Sink} {capacity : Nat} (h : sink.capacity = some capacity)
    (bytes : List UInt8) : sink.Holds bytes ↔ bytes.length ≤ capacity - sink.bytes.size := by
  simp only [Holds, room, h]
  omega

theorem push_of_holds {sink : Sink} {bytes : List UInt8} (h : sink.Holds bytes) :
    sink.push bytes = { sink with bytes := sink.bytes ++ bytes } := by
  rw [push, List.take_of_length_le h]

theorem written_push_of_holds {sink : Sink} {bytes : List UInt8} (h : sink.Holds bytes) :
    (sink.push bytes).written = sink.written ++ bytes := by
  simp [push_of_holds h, written]

theorem holds_append {sink : Sink} {front : List UInt8} (h : sink.Holds front)
    (back : List UInt8) : sink.Holds (front ++ back) ↔ (sink.push front).Holds back := by
  rw [push_of_holds h]
  cases hc : sink.capacity with
  | none => simp [Holds, room, hc]
  | some capacity =>
      rw [holds_iff hc] at h
      simp only [Holds, room, hc, List.length_append, size_append]
      omega

theorem push_append {sink : Sink} {front : List UInt8} (h : sink.Holds front)
    (back : List UInt8) : (sink.push front).push back = sink.push (front ++ back) := by
  rw [push_of_holds h]
  cases hc : sink.capacity with
  | none => simp [push, room, hc, append_append, List.take_of_length_le]
  | some capacity =>
      rw [holds_iff hc] at h
      have hroom : min (front.length + back.length) (capacity - sink.bytes.size) =
          front.length + min back.length (capacity - (sink.bytes.size + front.length)) := by omega
      simp only [push, room, hc, List.length_append, size_append, hroom,
        List.take_length_add_append, append_append]

theorem push_append_of_not_holds {sink : Sink} {front : List UInt8} (h : ¬ sink.Holds front)
    (back : List UInt8) : sink.push (front ++ back) = sink.push front := by
  cases hc : sink.capacity with
  | none => exact absurd (holds_of_unlimited hc front) h
  | some capacity =>
      rw [holds_iff hc] at h
      have hfull : min (front.length + back.length) (capacity - sink.bytes.size) =
          min front.length (capacity - sink.bytes.size) := by omega
      have hle : min front.length (capacity - sink.bytes.size) ≤ front.length := Nat.min_le_left _ _
      simp only [push, room, hc, List.length_append, hfull, List.take_append_of_le_length hle]

end Sink

namespace Writer

variable {write next : Writer Unit} {result : Except WriteError Unit} {front back : List UInt8}

/-- A writer hands over `bytes` and ends with `result`, unless the sink fails it before. -/
def Emits (write : Writer Unit) (result : Except WriteError Unit) (bytes : List UInt8) : Prop :=
  ∀ sink : Sink,
    write sink = (if sink.Holds bytes then result else .error .sinkFull, sink.push bytes)

theorem emits_put (bytes : List UInt8) : (put bytes).Emits (.ok ()) bytes := by
  intro sink
  by_cases h : sink.Holds bytes
  · rw [if_pos h]
    exact if_pos h
  · rw [if_neg h]
    exact if_neg h

theorem emits_pure : (pure () : Writer Unit).Emits (.ok ()) [] := by
  intro sink
  have h : sink.Holds [] := Nat.zero_le _
  rw [if_pos h, Sink.push_of_holds h]
  exact congrArg (Prod.mk _) (by simp)

theorem emits_throw (e : WriteError) : (throw e : Writer Unit).Emits (.error e) [] := by
  intro sink
  have h : sink.Holds [] := Nat.zero_le _
  rw [if_pos h, Sink.push_of_holds h]
  exact congrArg (Prod.mk _) (by simp)

theorem Emits.bind (h : write.Emits (.ok ()) front) (hnext : next.Emits result back) :
    (write >>= fun _ => next).Emits result (front ++ back) := by
  intro sink
  rw [run_bind, h sink]
  by_cases hf : sink.Holds front
  · simp only [if_pos hf, hnext (sink.push front), Sink.push_append hf, Sink.holds_append hf]
  · have hfb : ¬ sink.Holds (front ++ back) := by
      cases hc : sink.capacity with
      | none => exact absurd (Sink.holds_of_unlimited hc front) hf
      | some capacity =>
          rw [Sink.holds_iff hc] at hf ⊢
          rw [List.length_append]
          omega
    simp only [if_neg hf, if_neg hfb, Sink.push_append_of_not_holds hf]

theorem Emits.bind_error {e : WriteError} (h : write.Emits (.error e) front) (next : Writer Unit) :
    (write >>= fun _ => next).Emits (.error e) front := by
  intro sink
  rw [run_bind, h sink]
  by_cases hf : sink.Holds front
  · simp only [if_pos hf]
  · simp only [if_neg hf]

theorem Emits.bytes_eq (h : write.Emits result front) :
    Writer.bytes write = result.map fun _ => front := by
  have hroom : ({} : Sink).Holds front := Sink.holds_of_unlimited rfl front
  have hwritten := Sink.written_push_of_holds hroom
  rw [Writer.bytes, h {}, if_pos hroom]
  rcases result with e | ⟨⟩
  · rfl
  · exact congrArg Except.ok hwritten

end Writer

end TileKiln
