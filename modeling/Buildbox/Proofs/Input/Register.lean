import Mathlib.Data.List.Induction
import Mathlib.Data.List.TakeWhile
import Buildbox.InputRegion
import Buildbox.Proofs.Text.Terminated

/-!
An input region is a register with one slot. Lines are posted, readers look for one and the region
is closed, each while the lock of the region is held; a reader that looks in vain leaves the region
alone and looks again later. In whatever order this happens the answers are those of the register,
no access leaves the bytes of the region, and what a longer line left behind is never read.
-/

set_option autoImplicit false

namespace Buildbox

namespace InputRegion

/-- What is done to a region in one go. -/
inductive Operation
  | post (line : String)
  | wait
  | close
deriving Repr, DecidableEq

inductive Answer
  | posted (accepted : Bool)
  | blocked
  | terminated
  | line (bytes : Bytes)
  | closed
deriving Repr, DecidableEq

inductive Register
  | empty
  | full (line : String)
  | closed
deriving Repr, DecidableEq

def Register.perform : Operation → StateM Register Answer
  | .post line, .empty | .post line, .full _ => (.posted true, .full line)
  | .post _, .closed => (.posted false, .closed)
  | .wait, .empty => (.blocked, .empty)
  | .wait, .full line => (.line (Bytes.ofString line), .empty)
  | .wait, .closed => (.terminated, .closed)
  | .close, _ => (.closed, .closed)

def perform : Operation → StateM InputRegion Answer
  | .post line, region =>
    let (accepted, region) := region.post (Bytes.ofString line)
    (.posted accepted, region)
  | .wait, region =>
    match region.take with
    | .blocked => (.blocked, region)
    | .closed => (.terminated, region)
    | .line bytes region => (.line bytes, region)
  | .close, region => (.closed, region.close)

section Cells

/-- Work on the bytes of a region; an access outside of them gives nothing at all. -/
abbrev Cells := StateT Bytes Option

def load (place width : Nat) : Cells Bytes := fun bytes =>
  if place + width ≤ bytes.length then some ((bytes.drop place).take width, bytes) else none

def store (place : Nat) (part : Bytes) : Cells Unit := fun bytes =>
  if place + part.length ≤ bytes.length then
    some ((), bytes.take place ++ part ++ bytes.drop (place + part.length))
  else none

/-- How many bytes there are behind so many, if there are so many. -/
def room (taken : Nat) : Cells Nat := fun bytes =>
  if taken ≤ bytes.length then some (bytes.length - taken, bytes) else none

def loadFlag : Cells UInt32 := do
  return flag ⟨← load 0 headerSize⟩

def storeFlag (flag : UInt32) : Cells Unit :=
  store 0 (Bytes.ofWord flag)

def storeLine (part : Bytes) : Cells Unit := do
  store headerSize part
  store (headerSize + part.length) [0]
  storeFlag readyFlag

def takeLine : Cells Bytes := do
  let size ← room headerSize
  let line := Bytes.beforeNul (← load headerSize size)
  store 0 (Bytes.zeros (headerSize + size))
  storeFlag emptyFlag
  return line

/-- An operation access by access. -/
def Operation.access : Operation → Cells Answer
  | .post line => do
    if (← loadFlag) == closedFlag then return .posted false
    storeLine (Bytes.beforeNul ((Bytes.ofString line).take (← room (headerSize + 1))))
    return .posted true
  | .wait => do
    let flag ← loadFlag
    if flag == readyFlag then return .line (Bytes.ofString (Utf8.lossy (← takeLine)))
    else if flag == closedFlag then return .terminated
    else return .blocked
  | .close => do
    storeFlag closedFlag
    return .closed

variable {α β : Type}

private theorem cells_bind {cells : Cells α} {next : α → Cells β} {bytes after : Bytes} {a : α}
    (reached : cells bytes = some (a, after)) : (cells >>= next) bytes = next a after := by
  show (cells bytes >>= fun result => next result.1 result.2) = next a after
  rw [reached]
  rfl

private theorem load_at (before part after : Bytes) :
    load before.length part.length (before ++ part ++ after) =
      some (part, before ++ part ++ after) := by
  have inside : before.length + part.length ≤ (before ++ part ++ after).length := by simp
  rw [load, if_pos inside]
  simp

private theorem store_at {old part : Bytes} (same : old.length = part.length)
    (before after : Bytes) :
    store before.length part (before ++ old ++ after) = some ((), before ++ part ++ after) := by
  have inside : before.length + part.length ≤ (before ++ old ++ after).length := by simp [same]
  rw [store, if_pos inside, ← same]
  simp

private theorem room_at {taken : Nat} {bytes : Bytes} (inside : taken ≤ bytes.length) :
    room taken bytes = some (bytes.length - taken, bytes) :=
  if_pos inside

private theorem loadFlag_at {region : InputRegion} (sized : headerSize ≤ region.bytes.length) :
    loadFlag region.bytes = some (region.flag, region.bytes) := by
  obtain ⟨bytes⟩ := region
  rcases bytes with _ | ⟨b0, _ | ⟨b1, _ | ⟨b2, _ | ⟨b3, payload⟩⟩⟩⟩
  any_goals simp [headerSize] at sized
  have header : load 0 headerSize (b0 :: b1 :: b2 :: b3 :: payload) =
      some ([b0, b1, b2, b3], b0 :: b1 :: b2 :: b3 :: payload) :=
    load_at [] [b0, b1, b2, b3] payload
  exact (cells_bind header).trans rfl

end Cells

/-- A region with this flag and this payload. -/
def ofParts (flag : UInt32) (payload : Bytes) : InputRegion :=
  ⟨Bytes.ofWord flag ++ payload⟩

theorem length_ofWord (word : UInt32) : (Bytes.ofWord word).length = headerSize := rfl

theorem length_ofParts (flag : UInt32) (payload : Bytes) :
    (ofParts flag payload).bytes.length = headerSize + payload.length := by
  rw [ofParts, List.length_append, length_ofWord]

theorem ofParts_zeros (width : Nat) :
    ofParts emptyFlag (Bytes.zeros width) = ⟨Bytes.zeros (headerSize + width)⟩ := by
  simp only [ofParts, Bytes.zeros, ← List.replicate_append_replicate]
  rfl

theorem new_eq (capacity : Nat) :
    new capacity = ofParts emptyFlag (Bytes.zeros (max capacity 1)) :=
  (ofParts_zeros _).symm

section Flags

variable (payload : Bytes)

theorem isClosed_empty : (ofParts emptyFlag payload).isClosed = false := rfl

theorem isClosed_ready : (ofParts readyFlag payload).isClosed = false := rfl

end Flags

theorem post_of_open {flag : UInt32} {payload : Bytes}
    (isOpen : (ofParts flag payload).isClosed = false) (line : Bytes) :
    (ofParts flag payload).post line = (true, ofParts readyFlag
      ((ofParts flag payload).fitting line ++
        0 :: payload.drop (((ofParts flag payload).fitting line).length + 1))) := by
  rw [post, isOpen]
  rfl

theorem reset_ofParts (flag : UInt32) (payload : Bytes) :
    setFlag ⟨Bytes.zeros (ofParts flag payload).bytes.length⟩ emptyFlag =
      ofParts emptyFlag (Bytes.zeros payload.length) := by
  rw [length_ofParts, ← ofParts_zeros]
  rfl

theorem take_of_ready {part : Bytes} (nulFree : 0 ∉ part) (stale : Bytes) :
    (ofParts readyFlag (part ++ 0 :: stale)).take = .line (Bytes.ofString (Utf8.lossy part))
      (ofParts emptyFlag (Bytes.zeros (part ++ 0 :: stale).length)) := by
  have taken : (ofParts readyFlag (part ++ 0 :: stale)).take = .line
      (Bytes.ofString (Utf8.lossy (Bytes.beforeNul (part ++ 0 :: stale))))
      (setFlag ⟨Bytes.zeros (ofParts readyFlag (part ++ 0 :: stale)).bytes.length⟩ emptyFlag) :=
    rfl
  rw [taken, reset_ofParts, Bytes.beforeNul_terminated nulFree]

theorem post_of_closed {region : InputRegion} (gone : region.isClosed = true) (line : Bytes) :
    region.post line = (false, region) :=
  if_pos gone

theorem isClosed_close (region : InputRegion) : region.close.isClosed = true :=
  rfl

theorem take_of_closed {region : InputRegion} (gone : region.isClosed = true) :
    region.take = .closed :=
  if_pos gone

/-- A region whose payload has the width that a capacity asks for. -/
def Sized (capacity : Nat) (region : InputRegion) : Prop :=
  ∃ flag payload, region = ofParts flag payload ∧ payload.length = max capacity 1

section Sized

variable {capacity : Nat} {region : InputRegion}

theorem sized_new (capacity : Nat) : Sized capacity (new capacity) :=
  ⟨emptyFlag, _, new_eq capacity, List.length_replicate⟩

theorem isClosed_new (capacity : Nat) : (new capacity).isClosed = false := by
  rw [new_eq]
  rfl

theorem take_new (capacity : Nat) : (new capacity).take = .blocked := by
  rw [new_eq]
  rfl

/-- An open region keeps what fits of a line, and gives that out before it is as good as new. -/
theorem Sized.post (sized : Sized capacity region) (isOpen : region.isClosed = false)
    (line : Bytes) :
    (region.post line).1 = true ∧ (region.post line).2.isClosed = false ∧
      Sized capacity (region.post line).2 ∧
      (region.post line).2.take =
        .line (Bytes.ofString (Utf8.lossy ((new capacity).fitting line))) (new capacity) := by
  obtain ⟨flag, payload, rfl, width⟩ := sized
  have length : (ofParts flag payload).bytes.length = (new capacity).bytes.length := by
    rw [new_eq, length_ofParts, length_ofParts, width, Bytes.zeros, List.length_replicate]
  have same : (ofParts flag payload).fitting line = (new capacity).fitting line := by
    rw [fitting, fitting, InputRegion.capacity, length]
    rfl
  have room : (new capacity).capacity + 1 = max capacity 1 := by
    rw [InputRegion.capacity, ← length, length_ofParts, width]
    omega
  have short : ((new capacity).fitting line).length + 1 ≤ max capacity 1 := by
    have fits := Bytes.length_beforeNul_le (line.take (new capacity).capacity)
    rw [List.length_take] at fits
    rw [fitting]
    omega
  have nulFree : 0 ∉ (new capacity).fitting line := by
    intro among
    have kept := List.mem_takeWhile_imp among
    simp at kept
  have whole : ((new capacity).fitting line ++
      0 :: payload.drop (((new capacity).fitting line).length + 1)).length = max capacity 1 := by
    simp only [List.length_append, List.length_cons, List.length_drop]
    omega
  rw [post_of_open isOpen, same]
  refine ⟨rfl, rfl, ⟨_, _, rfl, whole⟩, ?_⟩
  rw [take_of_ready nulFree, whole, ← new_eq]

end Sized

section Access

variable {flag : UInt32} {payload : Bytes}

private theorem storeFlag_at (other : UInt32) :
    storeFlag other (ofParts flag payload).bytes = some ((), (ofParts other payload).bytes) :=
  store_at rfl [] payload

private theorem storeLine_at {part : Bytes} (short : part.length + 1 ≤ payload.length) :
    storeLine part (ofParts flag payload).bytes =
      some ((), (ofParts readyFlag (part ++ 0 :: payload.drop (part.length + 1))).bytes) := by
  obtain ⟨front, old, stale, length, rfl⟩ : ∃ front old stale,
      front.length = part.length ∧ payload = front ++ old :: stale := by
    refine ⟨payload.take part.length, payload[part.length], payload.drop (part.length + 1), ?_, ?_⟩
    · simp
      omega
    · simp
  have written : store headerSize part (ofParts flag (front ++ old :: stale)).bytes =
      some ((), (ofParts flag (part ++ old :: stale)).bytes) := by
    simpa [ofParts, length_ofWord] using store_at length (Bytes.ofWord flag) (old :: stale)
  have ended : store (headerSize + part.length) [0] (ofParts flag (part ++ old :: stale)).bytes =
      some ((), (ofParts flag (part ++ 0 :: stale)).bytes) := by
    have single : ([old] : Bytes).length = ([0] : Bytes).length := rfl
    have stored := store_at single (Bytes.ofWord flag ++ part) stale
    rw [List.length_append] at stored
    simpa [ofParts, length_ofWord] using stored
  have behind : (front ++ old :: stale).drop (part.length + 1) = stale := by
    rw [← length]
    simp
  rw [behind]
  exact (cells_bind written).trans ((cells_bind ended).trans (storeFlag_at readyFlag))

private theorem takeLine_at : takeLine (ofParts flag payload).bytes =
    some (payload.beforeNul, (ofParts emptyFlag (Bytes.zeros payload.length)).bytes) := by
  have length := length_ofParts flag payload
  have sized : (ofParts flag payload).bytes.length - headerSize = payload.length := by omega
  have loaded : load headerSize payload.length (ofParts flag payload).bytes =
      some (payload, (ofParts flag payload).bytes) := by
    simpa [ofParts, length_ofWord] using load_at (Bytes.ofWord flag) payload []
  have reset : store 0 (Bytes.zeros (headerSize + payload.length)) (ofParts flag payload).bytes =
      some ((), (ofParts emptyFlag (Bytes.zeros payload.length)).bytes) := by
    have same : (ofParts flag payload).bytes.length =
        (Bytes.zeros (headerSize + payload.length)).length := by simp [Bytes.zeros, length]
    rw [ofParts_zeros]
    simpa using store_at same [] []
  rw [takeLine]
  refine (cells_bind (room_at (by omega))).trans ?_
  rw [sized]
  exact (cells_bind loaded).trans ((cells_bind reset).trans (cells_bind (storeFlag_at emptyFlag)))

private theorem access_post (line : String) (roomy : 1 ≤ payload.length) :
    (Operation.post line).access (ofParts flag payload).bytes =
      some ((perform (.post line) (ofParts flag payload)).1,
        (perform (.post line) (ofParts flag payload)).2.bytes) := by
  have length := length_ofParts flag payload
  have sized : headerSize ≤ (ofParts flag payload).bytes.length := by omega
  have looked := loadFlag_at sized
  refine (cells_bind looked).trans ?_
  cases isOpen : (ofParts flag payload).isClosed with
  | true =>
    have closed : ((ofParts flag payload).flag == closedFlag) = true := isOpen
    rw [perform, post, if_pos isOpen, closed]
    rfl
  | false =>
    have opened : ((ofParts flag payload).flag == closedFlag) = false := isOpen
    rw [perform, post_of_open isOpen, opened]
    refine (cells_bind (room_at (by omega))).trans ?_
    have same : Bytes.beforeNul ((Bytes.ofString line).take
        ((ofParts flag payload).bytes.length - (headerSize + 1))) =
        (ofParts flag payload).fitting (Bytes.ofString line) := by
      rw [fitting, capacity, Nat.sub_sub]
    rw [same]
    have short : ((ofParts flag payload).fitting (Bytes.ofString line)).length + 1 ≤
        payload.length := by
      have fits := Bytes.length_beforeNul_le
        ((Bytes.ofString line).take (ofParts flag payload).capacity)
      rw [capacity, List.length_take] at fits
      rw [fitting, capacity]
      omega
    refine (cells_bind (storeLine_at short)).trans ?_
    rfl

private theorem access_wait : Operation.wait.access (ofParts flag payload).bytes =
    some ((perform .wait (ofParts flag payload)).1,
      (perform .wait (ofParts flag payload)).2.bytes) := by
  have length := length_ofParts flag payload
  have sized : headerSize ≤ (ofParts flag payload).bytes.length := by omega
  have looked := loadFlag_at sized
  refine (cells_bind looked).trans ?_
  cases ready : (ofParts flag payload).flag == readyFlag with
  | true =>
    have isOpen : (ofParts flag payload).isClosed = false := by
      rw [isClosed, eq_of_beq ready]
      rfl
    refine (cells_bind takeLine_at).trans ?_
    simp only [perform, take, isOpen, ready, reset_ofParts]
    rfl
  | false =>
    cases gone : (ofParts flag payload).isClosed with
    | true =>
      have closed : ((ofParts flag payload).flag == closedFlag) = true := gone
      simp only [perform, take, gone, closed]
      rfl
    | false =>
      have opened : ((ofParts flag payload).flag == closedFlag) = false := gone
      simp only [perform, take, gone, opened, ready]
      rfl

/-- No operation leaves the bytes of a region that has room for a terminator. -/
theorem access_eq (operation : Operation) (roomy : 1 ≤ payload.length) :
    operation.access (ofParts flag payload).bytes =
      some ((perform operation (ofParts flag payload)).1,
        (perform operation (ofParts flag payload)).2.bytes) := by
  cases operation with
  | post line => exact access_post line roomy
  | wait => exact access_wait
  | close => exact cells_bind (storeFlag_at closedFlag)

end Access

/-- A region with a payload of this width stands for a register. What is behind the end of a line is
not part of it. -/
inductive Holds (width : Nat) : InputRegion → Register → Prop
  | empty : Holds width (ofParts emptyFlag (Bytes.zeros width)) .empty
  | full {line : String} {stale : Bytes} (nulFree : 0 ∉ Bytes.ofString line)
      (sized : (Bytes.ofString line ++ 0 :: stale).length = width) :
      Holds width (ofParts readyFlag (Bytes.ofString line ++ 0 :: stale)) (.full line)
  | closed {payload : Bytes} (sized : payload.length = width) :
      Holds width (ofParts closedFlag payload) .closed

/-- A line that a region of this capacity takes whole. -/
def Fits (capacity : Nat) (line : String) : Prop :=
  0 ∉ Bytes.ofString line ∧ (Bytes.ofString line).length ≤ (new capacity).capacity

instance (capacity : Nat) (line : String) : Decidable (Fits capacity line) :=
  inferInstanceAs (Decidable (_ ∧ _))

def Operation.Fits (capacity : Nat) (operation : Operation) : Prop :=
  ∀ line, operation = .post line → InputRegion.Fits capacity line

theorem capacity_ofParts (flag : UInt32) (payload : Bytes) :
    (ofParts flag payload).capacity = payload.length - 1 := by
  rw [capacity, length_ofParts]
  omega

section Simulation

variable {capacity : Nat} {region : InputRegion} {register : Register}

theorem Holds.parts {width : Nat} (holds : Holds width region register) :
    ∃ flag payload, region = ofParts flag payload ∧ payload.length = width := by
  cases holds with
  | empty => exact ⟨_, _, rfl, by simp [Bytes.zeros]⟩
  | full nulFree sized => exact ⟨_, _, rfl, sized⟩
  | closed sized => exact ⟨_, _, rfl, sized⟩

private theorem holds_post {flag : UInt32} {payload : Bytes} {line : String}
    (isOpen : (ofParts flag payload).isClosed = false) (sized : payload.length = max capacity 1)
    (fits : Fits capacity line) :
    (perform (.post line) (ofParts flag payload)).1 = .posted true ∧
      Holds (max capacity 1) (perform (.post line) (ofParts flag payload)).2 (.full line) := by
  obtain ⟨nulFree, short⟩ := fits
  rw [new_eq, capacity_ofParts] at short
  simp only [Bytes.zeros, List.length_replicate] at short
  have whole : (ofParts flag payload).fitting (Bytes.ofString line) = Bytes.ofString line := by
    rw [fitting, capacity_ofParts, List.take_of_length_le (by omega)]
    exact Bytes.beforeNul_of_nulFree nulFree
  have posted := post_of_open isOpen (Bytes.ofString line)
  rw [whole] at posted
  rw [perform, posted]
  refine ⟨rfl, .full nulFree ?_⟩
  simp only [List.length_append, List.length_cons, List.length_drop]
  omega

private theorem holds_wait (holds : Holds (max capacity 1) region register) :
    (perform .wait region).1 = (Register.perform .wait register).1 ∧
      Holds (max capacity 1) (perform .wait region).2 (Register.perform .wait register).2 := by
  cases holds with
  | empty => exact ⟨rfl, .empty⟩
  | @full line stale nulFree sized =>
    have taken := take_of_ready nulFree stale
    rw [Utf8.lossy_ofString, sized] at taken
    rw [perform, taken]
    exact ⟨rfl, .empty⟩
  | closed sized => exact ⟨rfl, .closed sized⟩

theorem Holds.perform (holds : Holds (max capacity 1) region register) {operation : Operation}
    (fits : operation.Fits capacity) :
    (InputRegion.perform operation region).1 = (Register.perform operation register).1 ∧
      Holds (max capacity 1) (InputRegion.perform operation region).2
        (Register.perform operation register).2 := by
  cases operation with
  | post line =>
    cases holds with
    | empty => exact holds_post (isClosed_empty _) (by simp [Bytes.zeros]) (fits line rfl)
    | full nulFree sized => exact holds_post (isClosed_ready _) sized (fits line rfl)
    | closed sized => exact ⟨rfl, .closed sized⟩
  | wait => exact holds_wait holds
  | close =>
    obtain ⟨flag, payload, rfl, sized⟩ := holds.parts
    exact ⟨rfl, .closed sized⟩

private theorem run_mapM_cons {σ : Type} (step : Operation → StateM σ Answer)
    (operation : Operation) (later : List Operation) (s : σ) :
    ((operation :: later).mapM step).run s =
      ((step operation s).1 :: ((later.mapM step).run (step operation s).2).1,
        ((later.mapM step).run (step operation s).2).2) := by
  rw [List.mapM_cons]
  rfl

private theorem access_mapM_cons {operation : Operation} {later : List Operation}
    {bytes between after : Bytes} {answer : Answer} {answers : List Answer}
    (first : operation.access bytes = some (answer, between))
    (rest : (later.mapM Operation.access).run between = some (answers, after)) :
    ((operation :: later).mapM Operation.access).run bytes = some (answer :: answers, after) := by
  rw [List.mapM_cons]
  exact (cells_bind first).trans (cells_bind rest)

/-- Operations in a row, on the region and access by access, do what they do to the register. -/
theorem Holds.performAll (holds : Holds (max capacity 1) region register)
    {operations : List Operation} (fit : ∀ operation ∈ operations, operation.Fits capacity) :
    ∃ left, (operations.mapM InputRegion.perform).run region =
        (((operations.mapM Register.perform).run register).1, left) ∧
      (operations.mapM Operation.access).run region.bytes =
        some (((operations.mapM Register.perform).run register).1, left.bytes) ∧
      Holds (max capacity 1) left ((operations.mapM Register.perform).run register).2 := by
  induction operations generalizing region register with
  | nil => exact ⟨region, rfl, rfl, holds⟩
  | cons operation later ih =>
    obtain ⟨flag, payload, rfl, sized⟩ := holds.parts
    have roomy : 1 ≤ payload.length := by omega
    have accessed := @access_eq flag payload operation roomy
    obtain ⟨same, onward⟩ := holds.perform (fit operation List.mem_cons_self)
    obtain ⟨left, went, inside, last⟩ := ih onward fun next member =>
      fit next (List.mem_cons_of_mem _ member)
    rw [same] at accessed
    refine ⟨left, ?_, ?_, ?_⟩
    · rw [run_mapM_cons, run_mapM_cons, went, same]
    · rw [run_mapM_cons]
      exact access_mapM_cons accessed inside
    · rw [run_mapM_cons]
      exact last

end Simulation

/-- What an operation is answered after others: a closed region refuses, a line that was not taken
included, and a reader gets the last line if nobody has looked since. -/
def Operation.answerAfter (early : List Operation) : Operation → Answer
  | .post _ => .posted (.close ∉ early)
  | .wait =>
    if .close ∈ early then .terminated
    else
      match early.getLast? with
      | some (.post line) => .line (Bytes.ofString line)
      | _ => .blocked
  | .close => .closed

namespace Register

/-- The register after these operations. -/
def after (operations : List Operation) : Register :=
  ((operations.mapM Register.perform).run .empty).2

theorem performAll_append (early late : List Operation) (register : Register) :
    (((early ++ late).mapM Register.perform).run register) =
      (((early.mapM Register.perform).run register).1 ++
        ((late.mapM Register.perform).run
          ((early.mapM Register.perform).run register).2).1,
        ((late.mapM Register.perform).run ((early.mapM Register.perform).run register).2).2) := by
  induction early generalizing register with
  | nil => rfl
  | cons operation early ih =>
    rw [List.cons_append, run_mapM_cons, run_mapM_cons, ih]
    rfl

theorem length_answers (operations : List Operation) (register : Register) :
    ((operations.mapM Register.perform).run register).1.length = operations.length := by
  induction operations generalizing register with
  | nil => rfl
  | cons operation later ih =>
    rw [run_mapM_cons, List.length_cons, List.length_cons, ih]

theorem after_concat (operations : List Operation) (operation : Operation) :
    after (operations ++ [operation]) = (Register.perform operation (after operations)).2 := by
  rw [after, performAll_append]
  rfl

theorem after_eq (operations : List Operation) : after operations =
    if .close ∈ operations then .closed
    else
      match operations.getLast? with
      | some (.post line) => .full line
      | _ => .empty := by
  induction operations using List.reverseRecOn with
  | nil => rfl
  | append_singleton early operation ih =>
    rw [after_concat, ih]
    by_cases gone : .close ∈ early
    · cases operation <;> simp [gone, Register.perform]
    · simp only [gone, if_false]
      split
      · cases operation <;> simp [gone, Register.perform]
      · cases operation <;> simp [gone, Register.perform]

theorem answer_eq (early : List Operation) (operation : Operation) :
    (Register.perform operation (after early)).1 = operation.answerAfter early := by
  rw [after_eq, Operation.answerAfter.eq_def]
  by_cases gone : .close ∈ early
  · cases operation <;> simp [gone, Register.perform]
  · simp only [gone, if_false]
    split
    · cases operation <;> simp_all [Register.perform]
    · cases operation <;> simp [Register.perform]

theorem answers_getElem? (early : List Operation) (operation : Operation) (late : List Operation) :
    (((early ++ operation :: late).mapM Register.perform).run .empty).1[early.length]? =
      some (operation.answerAfter early) := by
  have length := length_answers early .empty
  rw [performAll_append, run_mapM_cons, List.getElem?_append_right (by omega), length,
    Nat.sub_self, List.getElem?_cons_zero]
  exact congrArg some (answer_eq early operation)

end Register

/-- A new region answers like an empty register, in whatever order its operations come. All of its
accesses are inside of it. -/
theorem region_is_register (capacity : Nat) (operations : List Operation)
    (fit : ∀ operation ∈ operations, operation.Fits capacity) :
    let (answers, register) := (operations.mapM Register.perform).run .empty
    (∃ region, (operations.mapM InputRegion.perform).run (new capacity) = (answers, region) ∧
      (operations.mapM Operation.access).run (new capacity).bytes =
        some (answers, region.bytes) ∧
      Holds (max capacity 1) region register) ∧
    ∀ early operation late, operations = early ++ operation :: late →
      answers[early.length]? = some (operation.answerAfter early) := by
  have start : Holds (max capacity 1) (new capacity) .empty := by
    rw [new_eq]
    exact .empty
  obtain ⟨region, performed, accessed, holds⟩ := start.performAll fit
  refine ⟨⟨region, performed, accessed, holds⟩, fun early operation late split => ?_⟩
  rw [split]
  exact Register.answers_getElem? early operation late

/-- A short line over a longer one, and a line that is still there when the region is closed. -/
def overwriting : List Operation :=
  [.post "long", .post "a", .wait, .wait, .post "b", .close, .wait, .post "c"]

theorem short_line_after_long :
    (∀ operation ∈ overwriting, operation.Fits 5) ∧
    ∃ region, (overwriting.mapM perform).run (new 5) =
      ([.posted true, .posted true, .line [0x61], .blocked, .posted true, .closed, .terminated,
        .posted false], region) ∧
      Holds 5 region .closed := by
  have fit : ∀ operation ∈ overwriting, operation.Fits 5 := by
    rintro operation among line rfl
    have lines : line ∈ ["long", "a", "b", "c"] := by simpa [overwriting] using among
    have fit : ∀ line ∈ ["long", "a", "b", "c"], Fits 5 line := by decide +kernel
    exact fit line lines
  obtain ⟨⟨region, performed, -, holds⟩, -⟩ := region_is_register 5 overwriting fit
  exact ⟨fit, region, performed, holds⟩

end InputRegion

end Buildbox
