import Mathlib.Algebra.Group.Nat.Defs
import Mathlib.Data.List.Basic

/-! Frames on a byte stream: a fixed header, the length of the payload in four bytes, most
significant first, and the payload. The stream arrives in chunks whose sizes mean
nothing. -/
namespace Framing

/-- `io.ReadFull` over the chunks still to come: the bytes and what is left, or `none` where
the chunks end first. -/
def readFull : Nat → List (List UInt8) → Option (List UInt8 × List (List UInt8))
  | 0, chunks => some ([],chunks)
  | _ + 1, [] => none
  | n + 1, chunk :: rest =>
    if n + 1 < chunk.length then some (chunk.take (n + 1),chunk.drop (n + 1) :: rest)
    else (readFull (n + 1 - chunk.length) rest).map fun read => (chunk ++ read.1,read.2)

/-- The chunks matter only by what they contain together. -/
theorem readFull_spec (n : Nat) (chunks : List (List UInt8)) :
    (n ≤ chunks.flatten.length ∧ ∃ left, readFull n chunks = some (chunks.flatten.take n,left) ∧
      left.flatten = chunks.flatten.drop n) ∨
    chunks.flatten.length < n ∧ readFull n chunks = none := by
  induction chunks generalizing n with
  | nil =>
    cases n with
    | zero => exact .inl ⟨Nat.le_refl 0,[],rfl,rfl⟩
    | succ n => exact .inr ⟨Nat.succ_pos n,rfl⟩
  | cons chunk rest ih =>
    cases n with
    | zero => exact .inl ⟨Nat.zero_le _,_,rfl,rfl⟩
    | succ n =>
      rw [List.flatten_cons,List.length_append]
      by_cases enough : n + 1 < chunk.length
      · refine .inl ⟨by omega,chunk.drop (n + 1) :: rest,?_,?_⟩
        · rw [readFull,if_pos enough,List.take_append_of_le_length (by omega)]
        · rw [List.flatten_cons,List.drop_append_of_le_length (by omega)]
      · rw [readFull,if_neg enough]
        have whole : chunk.length ≤ n + 1 := Nat.not_lt.mp enough
        rcases ih (n + 1 - chunk.length) with ⟨fits,left,read,remains⟩ | ⟨short,none⟩
        · refine .inl ⟨by omega,left,?_,?_⟩
          · rw [read,Option.map_some,List.take_append,List.take_of_length_le whole]
          · rw [remains,List.drop_append,List.drop_of_length_le whole,List.nil_append]
        · refine .inr ⟨by omega,?_⟩
          rw [none,Option.map_none]

def uint32 (bytes : List UInt8) : Nat := bytes.foldl (fun n b => 256 * n + b.toNat) 0

def putUint32 (n : Nat) : List UInt8 :=
  [UInt8.ofNat (n / 2 ^ 24),UInt8.ofNat (n / 2 ^ 16),UInt8.ofNat (n / 2 ^ 8),UInt8.ofNat n]

theorem uint32_putUint32 (bound : n < 2 ^ 32) : uint32 (putUint32 n) = n := by
  simp only [uint32,putUint32,List.foldl_cons,List.foldl_nil,UInt8.toNat_ofNat']
  omega

theorem uint32_four (a b c d : UInt8) :
    uint32 [a,b,c,d] = 2 ^ 24 * a.toNat + 2 ^ 16 * b.toNat + 2 ^ 8 * c.toNat + d.toNat := by
  simp only [uint32,List.foldl_cons,List.foldl_nil]
  omega

theorem exists_four (four : bytes.length = 4) : ∃ a b c d : UInt8, bytes = [a,b,c,d] := by
  match bytes,four with
  | [a,b,c,d],_ => exact ⟨a,b,c,d,rfl⟩

theorem uint32_lt (four : bytes.length = 4) : uint32 bytes < 2 ^ 32 := by
  obtain ⟨a,b,c,d,rfl⟩ := exists_four four
  have := a.toNat_lt
  have := b.toNat_lt
  have := c.toNat_lt
  have := d.toNat_lt
  rw [uint32_four]
  omega

theorem putUint32_uint32 (four : bytes.length = 4) : putUint32 (uint32 bytes) = bytes := by
  obtain ⟨a,b,c,d,rfl⟩ := exists_four four
  have := a.toNat_lt
  have := b.toNat_lt
  have := c.toNat_lt
  have := d.toNat_lt
  rw [uint32_four]
  simp only [putUint32,List.cons.injEq,and_true,← UInt8.toNat_inj,UInt8.toNat_ofNat']
  omega

@[simp] theorem length_putUint32 (n : Nat) : (putUint32 n).length = 4 := rfl

def frame (header payload : List UInt8) : List UInt8 := header ++ putUint32 payload.length ++ payload

@[simp] theorem length_frame (header payload : List UInt8) :
    (frame header payload).length = header.length + 4 + payload.length := by
  simp [frame,Nat.add_assoc]

/-- A frame is read in one way only. -/
theorem frame_append_inj (bound : left.length < 2 ^ 32) (bound' : right.length < 2 ^ 32)
    (eq : frame header left ++ rest = frame header right ++ rest') : left = right ∧ rest = rest' := by
  simp only [frame,List.append_assoc] at eq
  obtain ⟨lengths,eq⟩ := List.append_inj (List.append_cancel_left eq) rfl
  have length : left.length = right.length := by
    rw [← uint32_putUint32 bound,lengths,uint32_putUint32 bound']
  exact List.append_inj eq length

def frames (header : List UInt8) (payloads : List (List UInt8)) : List UInt8 :=
  (payloads.map (frame header)).flatten

@[simp] theorem frames_nil (header : List UInt8) : frames header [] = [] := rfl

@[simp] theorem frames_cons (header payload : List UInt8) (payloads : List (List UInt8)) :
    frames header (payload :: payloads) = frame header payload ++ frames header payloads := rfl

structure Leading (header stream : List UInt8) (payloads : List (List UInt8)) : Prop where
  short : ∀ payload ∈ payloads, payload.length < 2 ^ 32
  front : frames header payloads <+: stream
  longest : ∀ others, (∀ payload ∈ others, payload.length < 2 ^ 32) → frames header others <+: stream →
    others <+: payloads

namespace Leading

theorem nil (stuck : ∀ payload tail, payload.length < 2 ^ 32 → stream ≠ frame header payload ++ tail) :
    Leading header stream [] := by
  refine ⟨by simp,List.nil_prefix,fun others short front => ?_⟩
  cases others with
  | nil => exact List.prefix_rfl
  | cons payload others =>
    obtain ⟨tail,rfl⟩ := front
    rw [frames_cons,List.append_assoc] at stuck
    exact absurd rfl (stuck payload _ (short payload List.mem_cons_self))

theorem cons (leading : Leading header tail payloads) (bound : payload.length < 2 ^ 32) :
    Leading header (frame header payload ++ tail) (payload :: payloads) := by
  refine ⟨by simpa using ⟨bound,leading.short⟩,?_,fun others short front => ?_⟩
  · rw [frames_cons,List.prefix_append_right_inj]
    exact leading.front
  · cases others with
    | nil => exact List.nil_prefix
    | cons other others =>
      obtain ⟨rest,eq⟩ := front
      rw [frames_cons,List.append_assoc] at eq
      obtain ⟨rfl,rfl⟩ := frame_append_inj (short other List.mem_cons_self) bound eq
      rw [List.prefix_cons_inj]
      exact leading.longest others (fun payload mem => short payload (List.mem_cons_of_mem _ mem))
        (List.prefix_append _ _)

theorem tail (leading : Leading header stream (payload :: payloads)) :
    payload.length < 2 ^ 32 ∧ ∃ tail, stream = frame header payload ++ tail ∧ Leading header tail payloads := by
  have bound := leading.short payload List.mem_cons_self
  obtain ⟨rest,rfl⟩ := leading.front
  refine ⟨bound,frames header payloads ++ rest,by rw [frames_cons,List.append_assoc],
    fun payload mem => leading.short payload (List.mem_cons_of_mem _ mem),List.prefix_append _ _,
    fun others short front => ?_⟩
  rw [← List.prefix_cons_inj payload]
  refine leading.longest (payload :: others) (by simpa using ⟨bound,short⟩) ?_
  rw [frames_cons,frames_cons,List.append_assoc,List.prefix_append_right_inj]
  exact front

theorem stuck (leading : Leading header stream []) (bound : payload.length < 2 ^ 32) :
    stream ≠ frame header payload ++ rest := by
  rintro rfl
  have front : frames header [payload] <+: frame header payload ++ rest := by
    rw [frames_cons,frames_nil,List.append_nil]
    exact List.prefix_append _ _
  exact absurd (leading.longest [payload] (by simpa using bound) front) (by simp)

end Leading

/-- Every stream has its frames. -/
theorem exists_leading (header stream : List UInt8) : ∃ payloads, Leading header stream payloads := by
  induction length : stream.length using Nat.strongRecOn generalizing stream with
  | ind n ih =>
    by_cases framed : ∃ payload tail, payload.length < 2 ^ 32 ∧ stream = frame header payload ++ tail
    · obtain ⟨payload,tail,bound,rfl⟩ := framed
      have shorter : tail.length < n := by
        rw [← length,List.length_append,length_frame]
        omega
      obtain ⟨payloads,leading⟩ := ih tail.length shorter tail rfl
      exact ⟨payload :: payloads,leading.cons bound⟩
    · exact ⟨[],.nil fun payload tail bound eq => framed ⟨payload,tail,bound,eq⟩⟩

/-- Nothing but frames. -/
theorem leading_frames (short : ∀ payload ∈ payloads, payload.length < 2 ^ 32) :
    Leading header (frames header payloads) payloads := by
  induction payloads with
  | nil =>
    refine .nil fun payload tail _ eq => ?_
    have := congrArg List.length eq
    rw [List.length_append,length_frame,frames_nil,List.length_nil] at this
    omega
  | cons payload payloads ih =>
    exact (ih fun payload mem => short payload (List.mem_cons_of_mem _ mem)).cons
      (short payload List.mem_cons_self)

end Framing
