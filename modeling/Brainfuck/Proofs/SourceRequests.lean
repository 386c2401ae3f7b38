import Brainfuck.Proofs.Calls
import Brainfuck.Source.Bytes
import Mathlib.Data.List.Induction

/-!
# Requests to a byte source

A byte source answers four kinds of requests. In whatever order they come, it supplies the delivered
bytes and then nothing, makes no read once it has supplied nothing, and shows the failure that it met
until that is taken.
-/

namespace Brainfuck

theorem take_settleRead (script : List ReadAnswer) :
    script.take ((settleRead script).interruptions.length + 1) =
      (settleRead script).interruptions ++
        (script.dropWhile ReadAnswer.isInterruption).head?.toList := by
  have hsplit := congrArg (List.take ((settleRead script).interruptions.length + 1))
    (List.takeWhile_append_dropWhile (p := ReadAnswer.isInterruption) (l := script))
  rw [← hsplit, ← List.take_one]
  exact List.take_length_add_append 1

theorem rest_settleRead (script : List ReadAnswer) :
    (settleRead script).rest = script.drop ((settleRead script).interruptions.length + 1) := by
  have hsplit := congrArg (List.drop ((settleRead script).interruptions.length + 1))
    (List.takeWhile_append_dropWhile (p := ReadAnswer.isInterruption) (l := script))
  rw [← hsplit]
  exact List.drop_one.symm.trans (List.drop_length_add_append 1).symm

theorem countP_take_settleRead (script : List ReadAnswer) :
    (script.take ((settleRead script).interruptions.length + 1)).countP
      ReadAnswer.isInterruption = (settleRead script).interruptions.length := by
  have hlast : (script.dropWhile ReadAnswer.isInterruption).head?.toList.countP
      ReadAnswer.isInterruption = 0 := by
    have hhead := List.head?_dropWhile_not ReadAnswer.isInterruption script
    cases h : (script.dropWhile ReadAnswer.isInterruption).head? with
    | none => rfl
    | some a => simpa [h] using hhead
  rw [take_settleRead, List.countP_append, hlast, Nat.add_zero, List.countP_eq_length]
  exact fun a => isInterruption_of_mem_interruptions

theorem failed_mem_take_settleRead {script : List ReadAnswer} {e : IoError}
    (he : e.isInterruption = false) :
    .failed e ∈ script.take ((settleRead script).interruptions.length + 1) ↔
      (settleRead script).answer = .failed e := by
  have hanswer : (settleRead script).answer =
      (script.dropWhile ReadAnswer.isInterruption).head?.getD .ended := List.headD_eq_head?_getD
  have hnot : .failed e ∉ (settleRead script).interruptions := by
    intro hmem
    have hint : (ReadAnswer.failed e).isInterruption = true :=
      isInterruption_of_mem_interruptions hmem
    exact Bool.false_ne_true (he.symm.trans hint)
  rw [take_settleRead, List.mem_append, Option.mem_toList, hanswer]
  cases (script.dropWhile ReadAnswer.isInterruption).head? <;> simp [hnot]

namespace ByteSource

/-! ## Requests -/

inductive Request where
  | supply
  | position
  | failure
  | takeFailure
deriving DecidableEq, Repr

inductive Reply where
  | supplied (c : Option Char)
  | position (n : Nat)
  | failure (e : Option IoError)
  | taken (e : Option IoError)
deriving DecidableEq, Repr

namespace Reply

def supplied? : Reply → Option (Option Char)
  | supplied c => some c
  | position _ | failure _ | taken _ => none

def taken? : Reply → Option IoError
  | taken e => e
  | supplied _ | position _ | failure _ => none

end Reply

def reply (s : ByteSource) : Request → Reply × ByteSource
  | .supply => (.supplied s.supply.1.char?, s.supply.2)
  | .position => (.position s.position, s)
  | .failure => (.failure s.failure, s)
  | .takeFailure => (.taken s.takeFailure.1, s.takeFailure.2)

/-- The source after these requests. -/
def afterAll (s : ByteSource) (requests : List Request) : ByteSource :=
  requests.foldl (fun s r => (s.reply r).2) s

def replies (s : ByteSource) : List Request → List Reply
  | [] => []
  | r :: requests => (s.reply r).1 :: replies (s.reply r).2 requests

/-- All that was supplied, the nothing at the end included. -/
def given (s : ByteSource) (requests : List Request) : List (Option Char) :=
  (s.replies requests).filterMap Reply.supplied?

/-- The failures that were taken. -/
def taken (s : ByteSource) (requests : List Request) : List IoError :=
  (s.replies requests).filterMap Reply.taken?

variable {s : ByteSource} {script : List ReadAnswer}

theorem afterAll_append (s : ByteSource) (requests later : List Request) :
    s.afterAll (requests ++ later) = (s.afterAll requests).afterAll later := List.foldl_append

theorem replies_append (s : ByteSource) (requests later : List Request) :
    s.replies (requests ++ later) = s.replies requests ++ (s.afterAll requests).replies later := by
  induction requests generalizing s with
  | nil => rfl
  | cons r requests ih => exact congrArg (_ :: ·) (ih (s.reply r).2)

theorem given_append (s : ByteSource) (requests later : List Request) :
    s.given (requests ++ later) = s.given requests ++ (s.afterAll requests).given later := by
  rw [given, replies_append, List.filterMap_append]
  rfl

theorem taken_append (s : ByteSource) (requests later : List Request) :
    s.taken (requests ++ later) = s.taken requests ++ (s.afterAll requests).taken later := by
  rw [taken, replies_append, List.filterMap_append]
  rfl

theorem given_singleton (s : ByteSource) (r : Request) :
    s.given [r] = (s.reply r).1.supplied?.toList := by
  cases r <;> rfl

theorem taken_singleton (s : ByteSource) (r : Request) :
    s.taken [r] = (s.reply r).1.taken?.toList := by
  rw [taken, replies, replies, List.filterMap_cons, List.filterMap_nil]
  cases (s.reply r).1.taken? <;> rfl

theorem length_given (s : ByteSource) (requests : List Request) :
    (s.given requests).length = requests.count .supply := by
  induction requests generalizing s with
  | nil => rfl
  | cons r requests ih =>
    rw [← List.singleton_append, given_append, List.length_append, ih, List.count_append]
    cases r <;> rfl

/-! ## One supply -/

theorem supply_of_exhausted (h : s.exhausted = true) : s.supply = (.ended, s) := if_pos h

theorem reads_supply (h : s.exhausted = false) :
    s.supply.2.reads = s.reads + ((settleRead s.script).interruptions.length + 1) := by
  unfold supply
  rw [if_neg (Bool.eq_false_iff.1 h)]
  simp only
  cases (settleRead s.script).answer <;> rfl

theorem script_supply (h : s.exhausted = false) :
    s.supply.2.script = (settleRead s.script).rest := by
  unfold supply
  rw [if_neg (Bool.eq_false_iff.1 h)]
  simp only
  cases (settleRead s.script).answer <;> rfl

theorem exhausted_supply (s : ByteSource) :
    s.supply.2.exhausted = (s.exhausted || s.supply.1.char?.isNone) := by
  unfold supply
  split
  · simp [*]
  · cases h : (settleRead s.script).answer <;> simp [*, Supply.char?]

theorem supply_eq_failed_iff (h : s.exhausted = false) {e : IoError} :
    s.supply.1 = .failed e ↔ (settleRead s.script).answer = .failed e := by
  unfold supply
  rw [if_neg (Bool.eq_false_iff.1 h)]
  simp only
  cases (settleRead s.script).answer <;> simp

theorem failure_supply (s : ByteSource) :
    s.supply.2.failure = match s.supply.1 with
      | .failed e => some e
      | _ => s.failure := by
  unfold supply
  split
  · rfl
  · cases h : (settleRead s.script).answer <;> simp only [h]

/-- Among the answers that the next supply reads is this failure, and it is no interruption. -/
def Meets (s : ByteSource) (e : IoError) : Prop :=
  .failed e ∈ s.script.take (s.supply.2.reads - s.reads) ∧ e.isInterruption = false

theorem meets_iff {e : IoError} : s.Meets e ↔ s.supply.1 = .failed e := by
  unfold Meets
  cases h : s.exhausted with
  | true =>
    rw [supply_of_exhausted h, Nat.sub_self]
    simp
  | false =>
    rw [reads_supply h, Nat.add_sub_cancel_left, supply_eq_failed_iff h]
    refine ⟨fun ⟨hmem, he⟩ => (failed_mem_take_settleRead he).1 hmem, fun hanswer => ?_⟩
    have he : e.isInterruption = false := by
      have hsettled := isInterruption_answer_settleRead s.script
      rwa [hanswer] at hsettled
    exact ⟨(failed_mem_take_settleRead he).2 hanswer, he⟩

/-! ## What a source has given -/

/-- The answers up to the first that supplies nothing. -/
def upToNone : List (Option Char) → List (Option Char)
  | [] => []
  | none :: _ => [none]
  | some c :: given => some c :: upToNone given

theorem upToNone_append_of_notMem {given : List (Option Char)} (h : none ∉ given)
    (more : List (Option Char)) : upToNone (given ++ more) = given ++ upToNone more := by
  induction given with
  | nil => rfl
  | cons c given ih =>
    obtain ⟨hc, hgiven⟩ := not_or.1 fun hor => h (List.mem_cons.2 hor)
    cases c with
    | none => exact absurd rfl hc
    | some c => exact congrArg (_ :: ·) (ih hgiven)

theorem upToNone_append_of_mem {given : List (Option Char)} (h : none ∈ given)
    (more : List (Option Char)) : upToNone (given ++ more) = upToNone given := by
  induction given with
  | nil => contradiction
  | cons c given ih =>
    cases c with
    | none => rfl
    | some c => exact congrArg (_ :: ·) (ih (by simpa using h))

theorem length_upToNone_concat {given : List (Option Char)} (h : none ∉ given) (c : Option Char) :
    (upToNone (given ++ [c])).length = (upToNone given).length + 1 := by
  have hself := upToNone_append_of_notMem h []
  have hlast := upToNone_append_of_notMem h [c]
  rw [List.append_nil] at hself
  rw [hself, hlast, List.length_append]
  cases c <;> simp [upToNone]

/-- The source has given these characters, and these failures have been taken from it. -/
structure Serves (script : List ReadAnswer) (given : List (Option Char)) (taken : List IoError)
    (s : ByteSource) : Prop where
  given_eq : given =
    (List.range given.length).map fun i => ((delivered script).map Char.ofUInt8)[i]?
  rest_eq : s.rest = ((delivered script).map Char.ofUInt8).drop given.length
  position_eq : s.position = given.countP Option.isSome
  exhausted_iff : s.exhausted = true ↔ none ∈ given
  script_eq : s.script = script.drop s.reads
  reads_eq : s.reads =
    (upToNone given).length + (script.take s.reads).countP ReadAnswer.isInterruption
  /-- A failure is met once, and is then kept or taken. -/
  taken_le : taken.length + s.failure.isSome.toNat ≤ s.exhausted.toNat

theorem serves_ofScript (script : List ReadAnswer) : Serves script [] [] (ofScript script) where
  given_eq := rfl
  rest_eq := rfl
  position_eq := rfl
  exhausted_iff := by simp [ofScript]
  script_eq := rfl
  reads_eq := rfl
  taken_le := Nat.le_refl 0

namespace Serves

variable {given : List (Option Char)} {taken : List IoError}

theorem supply (h : Serves script given taken s) :
    Serves script (given ++ [s.supply.1.char?]) taken s.supply.2 := by
  have hchar : s.supply.1.char? = ((delivered script).map Char.ofUInt8)[given.length]? := by
    rw [← List.head?_drop, ← h.rest_eq]
    exact Source.char?_supply s
  refine ⟨?given, ?rest, ?position, ?exhausted, ?script, ?reads, ?taken⟩
  case given =>
    rw [List.length_append, List.length_singleton, List.range_succ, List.map_append, ← h.given_eq,
      hchar, List.map_singleton]
  case rest =>
    rw [List.length_append, List.length_singleton, ← List.tail_drop, ← h.rest_eq]
    exact Source.rest_supply s
  case position =>
    rw [position_supply, h.position_eq, List.countP_append, List.countP_singleton]
  case exhausted =>
    rw [exhausted_supply, Bool.or_eq_true, h.exhausted_iff, List.mem_append, List.mem_singleton,
      Option.isNone_iff_eq_none, eq_comm]
  -- The script is touched only by a source that has not come to its end.
  all_goals cases hs : s.exhausted
  case script.true => exact supply_of_exhausted hs ▸ h.script_eq
  case script.false =>
    rw [script_supply hs, reads_supply hs, rest_settleRead, h.script_eq, List.drop_drop]
  case reads.true =>
    rw [supply_of_exhausted hs, upToNone_append_of_mem (h.exhausted_iff.1 hs)]
    exact h.reads_eq
  case reads.false =>
    have hnot : none ∉ given := fun hmem =>
      Bool.false_ne_true (hs.symm.trans (h.exhausted_iff.2 hmem))
    have hbefore := h.reads_eq
    rw [reads_supply hs, List.take_add, List.countP_append, ← h.script_eq,
      countP_take_settleRead, length_upToNone_concat hnot]
    omega
  case taken.true => exact supply_of_exhausted hs ▸ h.taken_le
  case taken.false =>
    have hbefore := h.taken_le
    rw [hs, Bool.toNat_false] at hbefore
    rw [failure_supply, exhausted_supply, hs, Bool.false_or]
    cases s.supply.1 with
    | char c => exact hbefore
    | ended => exact Nat.le_trans hbefore (Nat.zero_le _)
    | failed e => exact Nat.succ_le_succ (Nat.le_trans (Nat.le_add_right ..) hbefore)

theorem takeFailure (h : Serves script given taken s) :
    Serves script given (taken ++ s.takeFailure.1.toList) s.takeFailure.2 :=
  { h with
    taken_le := by
      have hbefore := h.taken_le
      rw [List.length_append]
      unfold ByteSource.takeFailure
      cases hf : s.failure <;> simpa [hf] using hbefore }

theorem reply (h : Serves script given taken s) (r : Request) :
    Serves script (given ++ s.given [r]) (taken ++ s.taken [r]) (s.reply r).2 := by
  rw [given_singleton, taken_singleton]
  cases r with
  | supply => exact (List.append_nil taken).symm ▸ h.supply
  | position | failure => exact (List.append_nil given).symm ▸ (List.append_nil taken).symm ▸ h
  | takeFailure => exact (List.append_nil given).symm ▸ h.takeFailure

theorem failure_supply_iff (h : Serves script given taken s) {e : IoError} :
    s.supply.2.failure = some e ↔ s.Meets e ∨ s.failure = some e := by
  rw [failure_supply, meets_iff]
  cases hs : s.exhausted with
  | true => simp [supply_of_exhausted hs]
  | false =>
    have hnone : s.failure = none := by
      have hbefore := h.taken_le
      rw [hs] at hbefore
      cases hf : s.failure with
      | none => rfl
      | some e => simp [hf] at hbefore
    cases hsupply : s.supply.1 <;> simp [hnone]

end Serves

/-! ## Any requests -/

theorem serves_afterAll (script : List ReadAnswer) (requests : List Request) :
    Serves script ((ofScript script).given requests) ((ofScript script).taken requests)
      ((ofScript script).afterAll requests) := by
  induction requests using List.reverseRecOn with
  | nil => exact serves_ofScript script
  | append_singleton requests r ih =>
    rw [given_append, taken_append, afterAll_append]
    exact ih.reply r

/-- A supply has met this failure, and it has not been taken since. -/
def Kept (s : ByteSource) (requests : List Request) (e : IoError) : Prop :=
  ∃ before later, requests = before ++ .supply :: later ∧ (s.afterAll before).Meets e ∧
    .takeFailure ∉ later

theorem not_kept_nil (s : ByteSource) (e : IoError) : ¬s.Kept [] e := by
  rintro ⟨before, later, heq, -⟩
  cases before <;> contradiction

theorem kept_concat_iff {s : ByteSource} {requests : List Request} {r : Request} {e : IoError} :
    s.Kept (requests ++ [r]) e ↔
      (r = .supply ∧ (s.afterAll requests).Meets e) ∨ (s.Kept requests e ∧ r ≠ .takeFailure) := by
  constructor
  · rintro ⟨before, later, heq, hmeets, hlater⟩
    -- The last request met the failure, or it came after the one that did.
    rcases List.eq_nil_or_concat later with rfl | ⟨later, x, rfl⟩
    · obtain ⟨rfl, ⟨⟩⟩ := List.append_inj' heq rfl
      exact .inl ⟨rfl, hmeets⟩
    · rw [List.concat_eq_append] at heq hlater
      rw [← List.cons_append, ← List.append_assoc] at heq
      obtain ⟨rfl, ⟨⟩⟩ := List.append_inj' heq rfl
      rw [List.mem_append, not_or, List.mem_singleton] at hlater
      exact .inr ⟨⟨before, later, rfl, hmeets, hlater.1⟩, Ne.symm hlater.2⟩
  · rintro (⟨rfl, hmeets⟩ | ⟨⟨before, later, rfl, hmeets, hlater⟩, hr⟩)
    · exact ⟨requests, [], rfl, hmeets, List.not_mem_nil⟩
    · refine ⟨before, later ++ [r], by simp, hmeets, ?_⟩
      rw [List.mem_append, not_or, List.mem_singleton]
      exact ⟨hlater, Ne.symm hr⟩

theorem failure_afterAll_iff (script : List ReadAnswer) (requests : List Request) (e : IoError) :
    ((ofScript script).afterAll requests).failure = some e ↔
      (ofScript script).Kept requests e := by
  induction requests using List.reverseRecOn with
  | nil => simp [afterAll, ofScript, not_kept_nil]
  | append_singleton requests r ih =>
    have hserves := serves_afterAll script requests
    rw [afterAll_append, kept_concat_iff, ← ih]
    cases r with
    | supply => simpa [afterAll, reply] using hserves.failure_supply_iff
    | position => simp [afterAll, reply]
    | failure => simp [afterAll, reply]
    | takeFailure => simp [afterAll, reply, takeFailure]

/-! ## The contract -/

theorem given_of_exhausted (h : s.exhausted = true) (requests : List Request) :
    s.given requests = List.replicate (requests.count .supply) none ∧
      (s.afterAll requests).reads = s.reads := by
  induction requests generalizing s with
  | nil => exact ⟨rfl, rfl⟩
  | cons r requests ih =>
    have hreply : (s.reply r).2.exhausted = true ∧ (s.reply r).2.reads = s.reads := by
      cases r with
      | supply =>
        rw [reply, supply_of_exhausted h]
        exact ⟨h, rfl⟩
      | position | failure | takeFailure => exact ⟨h, rfl⟩
    have hfirst : s.given [r] = List.replicate ([r].count .supply) none := by
      rw [given_singleton]
      cases r with
      | supply =>
        rw [reply, supply_of_exhausted h]
        rfl
      | position | failure | takeFailure => rfl
    obtain ⟨hgiven, hreads⟩ := ih hreply.1
    rw [← List.singleton_append, given_append, afterAll_append, List.count_append,
      ← List.replicate_append_replicate, hfirst]
    exact ⟨congrArg (_ ++ ·) hgiven, hreads.trans hreply.2⟩

/-- What a source promises whoever has made these requests, and makes the next one. -/
structure KeepsContract (script : List ReadAnswer) (requests : List Request) : Prop where
  /-- The delivered bytes come in order, and nothing comes after them. -/
  given_eq : (ofScript script).given requests = (List.range (requests.count .supply)).map fun i =>
    ((delivered script).map Char.ofUInt8)[i]?
  stays_exhausted : none ∈ (ofScript script).given requests → ∀ later,
    (ofScript script).given (requests ++ later) =
        (ofScript script).given requests ++ List.replicate (later.count .supply) none ∧
      ((ofScript script).afterAll (requests ++ later)).reads =
        ((ofScript script).afterAll requests).reads
  position_eq : (((ofScript script).afterAll requests).reply .position).1 =
    .position (((ofScript script).given requests).countP Option.isSome)
  failure_iff (e : IoError) :
    (((ofScript script).afterAll requests).reply .failure).1 = .failure (some e) ↔
      (ofScript script).Kept requests e
  takeFailure_iff (e : IoError) :
    (((ofScript script).afterAll requests).reply .takeFailure).1 = .taken (some e) ↔
      (ofScript script).Kept requests e
  taken_once : ((ofScript script).taken requests).length ≤ 1
  /-- Each answer of the channel is asked for once. -/
  script_eq : ((ofScript script).afterAll requests).script =
    script.drop ((ofScript script).afterAll requests).reads
  reads_eq : ((ofScript script).afterAll requests).reads =
    (upToNone ((ofScript script).given requests)).length +
      (script.take ((ofScript script).afterAll requests).reads).countP ReadAnswer.isInterruption

theorem keeps_contract (script : List ReadAnswer) (requests : List Request) :
    KeepsContract script requests := by
  have hserves := serves_afterAll script requests
  have hfailure := failure_afterAll_iff script requests
  refine ⟨?given, ?exhausted, ?position, fun e => ?failure, fun e => ?takeFailure, ?taken,
    hserves.script_eq, hserves.reads_eq⟩
  case given =>
    rw [← length_given (ofScript script)]
    exact hserves.given_eq
  case exhausted =>
    intro hnone later
    obtain ⟨hgiven, hreads⟩ := given_of_exhausted (hserves.exhausted_iff.2 hnone) later
    rw [given_append, afterAll_append, hgiven, hreads]
    exact ⟨rfl, rfl⟩
  case position => exact congrArg Reply.position hserves.position_eq
  case failure =>
    rw [← hfailure e]
    exact Reply.failure.injEq .. ▸ Iff.rfl
  case takeFailure =>
    rw [← hfailure e]
    exact Reply.taken.injEq .. ▸ Iff.rfl
  case taken =>
    have hle := hserves.taken_le
    have hlast := Bool.toNat_le ((ofScript script).afterAll requests).exhausted
    omega

/-- What the channel would answer after its failure is never asked for. -/
example :
    let e : IoError := ⟨.other, "bad sector"⟩
    let script := [.byte 43, .failed ⟨.interrupted, "again"⟩, .failed e, .byte 45]
    let requests := [.supply, .supply, .failure, .takeFailure, .failure, .supply, .position]
    (ofScript script).replies requests =
        [.supplied '+', .supplied none, .failure e, .taken e, .failure none, .supplied none,
          .position 1] ∧
      ((ofScript script).afterAll requests).reads = 3 := by
  decide

end ByteSource

end Brainfuck
