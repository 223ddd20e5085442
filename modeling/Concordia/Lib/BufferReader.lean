import Mathlib.Data.List.Basic
import Mathlib.Tactic

/-! Readers of a byte buffer that keep an offset, beside readers of the bytes still to come. A
reader of the buffer stays within it whatever it finds, and finds what the other one finds. -/
namespace Concordia.Lib.BufferReader

structure Buffer where
  bytes : List UInt8
  offset : Nat
  /-- The ranges that were sliced out, the latest one first. -/
  slices : List (Nat × Nat)

def Buffer.start (bytes : List UInt8) : Buffer := ⟨bytes, 0, []⟩

def Buffer.rest (b : Buffer) : List UInt8 := b.bytes.drop b.offset

/-- The state survives an error, so that a refused input still tells what was looked at. -/
abbrev BufferReader (ε : Type) := ExceptT ε (StateM Buffer)

abbrev ListReader (ε : Type) := StateT (List UInt8) (Except ε)

def slice (bytes : List UInt8) (start stop : Nat) : List UInt8 :=
  (bytes.drop start).take (stop - start)

section Operations
variable {ε : Type}

def read (length : Nat) (truncated : ε) : BufferReader ε (List UInt8) := fun b =>
  if b.bytes.length < b.offset + length then (.error truncated, b)
  else (.ok (slice b.bytes b.offset (b.offset + length)),
    { b with offset := b.offset + length, slices := (b.offset, b.offset + length) :: b.slices })

def demand (condition : Bool) (error : ε) : BufferReader ε Unit := fun b =>
  if condition then (.ok (), b) else (.error error, b)

def position : BufferReader ε Nat := fun b => (.ok b.offset, b)

def readList (length : Nat) (truncated : ε) : ListReader ε (List UInt8) := fun bytes =>
  if bytes.length < length then .error truncated
  else .ok (bytes.take length, bytes.drop length)

def demandList (condition : Bool) (error : ε) : ListReader ε Unit := fun bytes =>
  if condition then .ok ((), bytes) else .error error

end Operations

/-- Every slice and the offset are inside the buffer. -/
structure Buffer.Within (b : Buffer) (bytes : List UInt8) : Prop where
  content : b.bytes = bytes
  offset : b.offset ≤ bytes.length
  slices : ∀ range ∈ b.slices, range.1 ≤ range.2 ∧ range.2 ≤ bytes.length

theorem Buffer.start_within (bytes : List UInt8) : (Buffer.start bytes).Within bytes :=
  ⟨rfl, Nat.zero_le _, fun _ h => absurd h List.not_mem_nil⟩

section Runs
variable {ε α β : Type} {p : BufferReader ε α} {f : α → BufferReader ε β} {b b' : Buffer}
  {x : α}

theorem bind_of_ok (h : p b = (.ok x, b')) : (p >>= f) b = f x b' := by
  change (match p b with | (r, s) => ExceptT.bindCont f r s) = _
  rw [h]
  rfl

theorem bind_of_error {e : ε} (h : p b = (.error e, b')) : (p >>= f) b = (.error e, b') := by
  change (match p b with | (r, s) => ExceptT.bindCont f r s) = _
  rw [h]
  rfl

/-- A run that ends well went well up to every point. -/
theorem bind_ok {y : β} (h : (p >>= f) b = (.ok y, b')) :
    ∃ x b₁, p b = (.ok x, b₁) ∧ f x b₁ = (.ok y, b') := by
  rcases hrun : p b with ⟨result, b₁⟩
  cases result with
  | error e =>
    rw [bind_of_error hrun] at h
    cases h
  | ok x =>
    rw [bind_of_ok hrun] at h
    exact ⟨x, b₁, rfl, h⟩

theorem pure_ok {y : α} (h : (pure x : BufferReader ε α) b = (.ok y, b')) : x = y ∧ b = b' := by
  obtain ⟨hx, hb⟩ := Prod.mk.inj h
  exact ⟨Except.ok.inj hx, hb⟩

theorem position_ok {offset : Nat} (h : (position : BufferReader ε Nat) b = (.ok offset, b')) :
    offset = b.offset ∧ b = b' := by
  obtain ⟨hoffset, hb⟩ := Prod.mk.inj h
  exact ⟨(Except.ok.inj hoffset).symm, hb⟩

theorem demand_ok {condition : Bool} {error : ε}
    (h : (demand condition error >>= fun _ => p) b = (.ok x, b')) :
    condition = true ∧ p b = (.ok x, b') := by
  cases condition with
  | false => cases h
  | true => exact ⟨rfl, h⟩

theorem slice_rest (b : Buffer) (length : Nat) :
    slice b.bytes b.offset (b.offset + length) = b.rest.take length := by
  rw [slice, Nat.add_sub_cancel_left, Buffer.rest]

/-- What is read stands in front of what is left. -/
theorem read_ok {length : Nat} {truncated : ε} {bytes : List UInt8}
    (h : read length truncated b = (.ok bytes, b')) :
    b.rest = bytes ++ b'.rest ∧ bytes.length = length := by
  unfold read at h
  split at h
  · cases h
  · next hlong =>
    obtain ⟨hbytes, rfl⟩ := Prod.mk.inj h
    obtain rfl := Except.ok.inj hbytes
    rw [slice_rest]
    constructor
    · rw [Buffer.rest, Buffer.rest, ← List.drop_drop, List.take_append_drop]
    · rw [List.length_take, Buffer.rest, List.length_drop]
      omega

end Runs

/-! What a reader of the buffer shares with a reader of the bytes to come. -/
section Follows
variable {ε α β γ δ : Type} {bytes : List UInt8}

/-- The two results, with the rest that the buffer has left. -/
def Agree (R : α → β → Prop) (result : Except ε α) (rest : List UInt8)
    (other : Except ε (β × List UInt8)) : Prop :=
  match result with
  | .ok x => ∃ y, other = .ok (y, rest) ∧ R x y
  | .error e => other = .error e

def Follows (bytes : List UInt8) (p : BufferReader ε α) (q : ListReader ε β) (R : α → β → Prop) :
    Prop :=
  ∀ b, b.Within bytes → (p b).2.Within bytes ∧ Agree R (p b).1 (p b).2.rest (q b.rest)

theorem Follows.pure {R : α → β → Prop} {x : α} {y : β} (h : R x y) :
    Follows bytes (pure x : BufferReader ε α) (pure y) R :=
  fun _ hb => ⟨hb, y, rfl, h⟩

theorem Follows.throw {R : α → β → Prop} (e : ε) :
    Follows bytes (throw e : BufferReader ε α) (throw e) R :=
  fun _ hb => ⟨hb, rfl⟩

theorem listBind_of_ok {q : ListReader ε β} {g : β → ListReader ε δ} {y : β}
    {rest left : List UInt8} (h : q rest = .ok (y, left)) : (q >>= g) rest = g y left := by
  change (q rest >>= fun r => g r.1 r.2) = _
  rw [h]
  rfl

theorem listBind_of_error {q : ListReader ε β} {g : β → ListReader ε δ} {e : ε}
    {rest : List UInt8} (h : q rest = .error e) : (q >>= g) rest = .error e := by
  change (q rest >>= fun r => g r.1 r.2) = _
  rw [h]
  rfl

theorem Follows.bind {R : α → β → Prop} {T : γ → δ → Prop} {p : BufferReader ε α}
    {q : ListReader ε β} {f : α → BufferReader ε γ} {g : β → ListReader ε δ}
    (hp : Follows bytes p q R) (hf : ∀ x y, R x y → Follows bytes (f x) (g y) T) :
    Follows bytes (p >>= f) (q >>= g) T := by
  intro b hb
  obtain ⟨hwithin, hagree⟩ := hp b hb
  rcases hrun : p b with ⟨result, b'⟩
  rw [hrun] at hwithin hagree
  cases result with
  | error e =>
    rw [bind_of_error hrun, listBind_of_error hagree]
    exact ⟨hwithin, rfl⟩
  | ok x =>
    obtain ⟨y, hy, hxy⟩ := hagree
    rw [bind_of_ok hrun, listBind_of_ok hy]
    exact hf x y hxy b' hwithin

theorem Follows.read (length : Nat) (truncated : ε) :
    Follows bytes (read length truncated) (readList length truncated) Eq := by
  rintro ⟨content, offset, ranges⟩ ⟨hcontent, hoffset, hranges⟩
  obtain rfl : content = bytes := hcontent
  have hoffset : offset ≤ content.length := hoffset
  have hlength : (Buffer.rest ⟨content, offset, ranges⟩).length = content.length - offset :=
    List.length_drop
  unfold BufferReader.read readList
  by_cases hshort : content.length < offset + length
  · rw [if_pos hshort, if_pos (by omega)]
    exact ⟨⟨rfl, hoffset, hranges⟩, rfl⟩
  · rw [if_neg hshort, if_neg (by omega)]
    have hstop : offset + length ≤ content.length := not_lt.mp hshort
    refine ⟨⟨rfl, hstop, ?_⟩, (content.drop offset).take length, ?_, slice_rest _ _⟩
    · intro range hrange
      rcases List.mem_cons.mp hrange with rfl | hold
      · exact ⟨Nat.le_add_right _ _, hstop⟩
      · exact hranges range hold
    · simp only [Buffer.rest, List.drop_drop]

theorem Follows.demand (condition : Bool) (error : ε) :
    Follows bytes (demand condition error) (demandList condition error) fun _ _ =>
      condition = true := by
  intro b hb
  cases condition with
  | false => exact ⟨hb, rfl⟩
  | true => exact ⟨hb, (), rfl, rfl⟩

/-- A position stands for the bytes behind it. -/
theorem Follows.position : Follows bytes (position : BufferReader ε Nat)
    (get : ListReader ε (List UInt8)) fun offset rest =>
      offset ≤ bytes.length ∧ rest = bytes.drop offset :=
  fun b hb => ⟨hb, b.rest, rfl, hb.offset, by rw [Buffer.rest, hb.content]⟩

/-- A result may carry more than the other reader keeps. -/
theorem Follows.mono {R T : α → β → Prop} {p : BufferReader ε α} {q : ListReader ε β}
    (h : Follows bytes p q R) (hmono : ∀ x y, R x y → T x y) : Follows bytes p q T := by
  intro b hb
  obtain ⟨hwithin, hagree⟩ := h b hb
  refine ⟨hwithin, ?_⟩
  rcases hrun : p b with ⟨result, b'⟩
  rw [hrun] at hagree
  cases result with
  | error e => exact hagree
  | ok x =>
    obtain ⟨y, hy, hxy⟩ := hagree
    exact ⟨y, hy, hmono x y hxy⟩

/-- The bytes between two positions, read off what is left at each. -/
theorem slice_of_rests {start stop : Nat} (hstop : stop ≤ bytes.length) :
    slice bytes start stop =
      (bytes.drop start).take ((bytes.drop start).length - (bytes.drop stop).length) := by
  have hlength : stop - start = bytes.length - start - (bytes.length - stop) := by omega
  rw [slice, List.length_drop, List.length_drop, hlength]

end Follows
end Concordia.Lib.BufferReader
