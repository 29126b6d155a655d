import Mathlib.Data.List.DropRight
import NetKit.Digest

/-!
# Digests of streams

A hasher depends on nothing but the data that it has been given: however this is cut into pieces,
whole blocks are compressed from the front and the rest waits. Its digest is that of the message
which the pieces make up.
-/

namespace NetKit

/-! ## Blocks -/

namespace Sha2

variable {W : Type} (k : WordSize W)

theorem length_output (s : State W) : (output k s).length = 8 * k.octets := by
  simp only [output, List.length_flatMap, length_bigEndianOctets, List.map_const',
    List.sum_replicate_nat, State.length_toList]

variable [Add W] [XorOp W] [AndOp W] [Complement W] [Inhabited W]

theorem absorb_nil (s : State W) : absorb k s [] = (s, []) := by
  rw [absorb, dif_neg]
  rintro ⟨hpos, hle⟩
  exact absurd hle (Nat.not_le_of_lt hpos)

/-- What follows waits behind what is left over of the front. -/
theorem absorb_append (s : State W) (xs ys : Bytes) :
    absorb k s (xs ++ ys) = absorb k (absorb k s xs).1 ((absorb k s xs).2 ++ ys) := by
  fun_induction absorb k s xs with
  | case1 s xs h ih =>
    -- a whole block at the front of the first part is one at the front of both
    have hlong : k.block ≤ (xs ++ ys).length := by
      rw [List.length_append]
      omega
    rw [absorb, dif_pos ⟨h.1, hlong⟩, List.take_append_of_le_length h.2,
      List.drop_append_of_le_length h.2, ih]
  | case2 s xs h => rfl

end Sha2

/-! ## Chains -/

namespace Digest.Chain

variable (c : Chain)

theorem absorb_nil : c.absorb [] = (c, []) := by
  cases c with
  | narrow s | wide s => simp only [absorb, Sha2.absorb_nil]

theorem absorb_append (xs ys : Bytes) :
    c.absorb (xs ++ ys) = (c.absorb xs).1.absorb ((c.absorb xs).2 ++ ys) := by
  cases c with
  | narrow s => simp only [absorb, Sha2.absorb_append Sha2.word32 s xs]
  | wide s => simp only [absorb, Sha2.absorb_append Sha2.word64 s xs]

theorem padding_absorb (bs : Bytes) (total : Nat) :
    (c.absorb bs).1.padding total = c.padding total := by
  cases c <;> rfl

/-- How many octets come out of a chain. -/
def size : Chain → Nat
  | .narrow _ => 32
  | .wide _ => 64

theorem length_output : c.output.length = c.size := by
  cases c with
  | narrow s => exact Sha2.length_output Sha2.word32 s
  | wide s => exact Sha2.length_output Sha2.word64 s

theorem size_absorb (bs : Bytes) : (c.absorb bs).1.size = c.size := by
  cases c <;> rfl

theorem length_le_size_start (a : DigestAlgorithm) : a.length ≤ (start a).size := by
  cases a <;> decide

end Digest.Chain

theorem Digest.length_hash (a : DigestAlgorithm) (message : Bytes) :
    (hash a message).length = a.length := by
  rw [hash, List.length_take, Chain.length_output, Chain.size_absorb]
  exact Nat.min_eq_left (Chain.length_le_size_start a)

/-! ## Hashers -/

namespace Hasher

open Digest (Chain)

/-- The hasher that has been given some data. -/
def holding (a : DigestAlgorithm) (data : Bytes) : Hasher where
  algorithm := a
  chain := ((Chain.start a).absorb data).1
  pending := ((Chain.start a).absorb data).2
  total := data.length

variable {a : DigestAlgorithm} {given : Bytes}

theorem new_eq (a : DigestAlgorithm) : new a = holding a [] := by
  rw [new, holding, Chain.absorb_nil, List.length_nil]

theorem add_holding (more : Bytes) : (holding a given).add more = holding a (given ++ more) := by
  simp only [add, holding, Chain.absorb_append (Chain.start a) given, List.length_append]

theorem reset_holding : (holding a given).reset = holding a [] := new_eq a

theorem result_holding : (holding a given).result = Digest.hash a given := by
  simp only [result, holding, Chain.padding_absorb, Digest.hash,
    Chain.absorb_append (Chain.start a) given]

/-! ## Calls -/

namespace Call

/-- The data that a call brings. -/
def data : Call → Bytes
  | .add data | .write data => data
  | .reset | .result => []

/-- What the data of some calls come to: those after the last reset, in order. -/
def added (calls : List Call) : Bytes :=
  (calls.rtakeWhile (· ≠ .reset)).flatMap data

theorem added_concat_reset (calls : List Call) : added (calls ++ [.reset]) = [] := by
  rw [added, List.rtakeWhile_concat_neg _ _ _ (by simp), List.flatMap_nil]

theorem added_concat {c : Call} (calls : List Call) (h : c ≠ .reset) :
    added (calls ++ [c]) = added calls ++ c.data := by
  rw [added, List.rtakeWhile_concat_pos _ _ _ (by simpa using h), List.flatMap_append,
    List.flatMap_singleton]
  rfl

/-- What a call answers when all the data is kept and hashed at once. -/
def answer (a : DigestAlgorithm) (given : Bytes) : Call → Answer
  | .add _ | .reset => .done
  | .write more => .taken more.length
  | .result => .digest (Digest.hash a given)

end Call

open Call (added)

/-- The hasher after some calls. -/
def run (h : Hasher) (calls : List Call) : Hasher :=
  calls.foldl (fun h c => (h.call c).1) h

/-- The answers to some calls, one after the other. -/
def answers (h : Hasher) : List Call → List Answer
  | [] => []
  | c :: calls => (h.call c).2 :: (h.call c).1.answers calls

theorem call_holding (c : Call) : ((holding a given).call c).2 = c.answer a given := by
  cases c with
  | add | write | reset => rfl
  | result => exact congrArg Answer.digest result_holding

theorem run_concat (h : Hasher) (calls : List Call) (c : Call) :
    h.run (calls ++ [c]) = ((h.run calls).call c).1 := by
  rw [run, List.foldl_append]
  rfl

theorem run_new (a : DigestAlgorithm) (calls : List Call) :
    (new a).run calls = holding a (added calls) := by
  induction calls using List.reverseRecOn with
  | nil => exact new_eq a
  | append_singleton calls c ih =>
    rw [run_concat, ih]
    cases c with
    | add more | write more =>
      rw [Call.added_concat calls (by simp)]
      exact add_holding more
    | reset =>
      rw [Call.added_concat_reset]
      exact reset_holding
    | result =>
      rw [Call.added_concat calls (by simp), Call.data, List.append_nil]
      rfl

theorem answers_eq (h : Hasher) (calls : List Call) :
    h.answers calls = calls.mapIdx fun i c => ((h.run (calls.take i)).call c).2 := by
  induction calls generalizing h with
  | nil => rfl
  | cons c calls ih =>
    rw [answers, ih, List.mapIdx_cons]
    rfl

/-- Taking a digest leaves the hasher as it is. -/
theorem run_without_results (h : Hasher) (calls : List Call) :
    h.run (calls.filter (· ≠ .result)) = h.run calls := by
  induction calls generalizing h with
  | nil => rfl
  | cons c calls ih =>
    cases c with
    | add | write | reset => exact ih _
    | result => exact ih h

/-- Every call on a new hasher answers as if all the data since the last reset were kept and hashed
at once. Taking digests has no effect on the calls after them, and every digest is as long as its
algorithm says. -/
theorem streaming_equals_one_shot (a : DigestAlgorithm) (calls : List Call) :
    (new a).answers calls = calls.mapIdx (fun i c => c.answer a (added (calls.take i))) ∧
      (new a).run (calls.filter (· ≠ .result)) = (new a).run calls ∧
      ∀ message, (Digest.hash a message).length = a.length := by
  refine ⟨?_, run_without_results (new a) calls, Digest.length_hash a⟩
  simp only [answers_eq, run_new, call_holding]

end Hasher

end NetKit
