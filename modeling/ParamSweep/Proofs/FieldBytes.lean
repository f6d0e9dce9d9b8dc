import Mathlib
import ParamSweep.Output.Integrity

/-!
The bytes that stand for the fields of a snapshot.

A field is written as its name, a zero and eight bytes for each sample. How many samples follow is
not written, so another snapshot may have the same bytes, in which part of the samples is read as
the name of another field. With the names and the numbers of samples the bytes determine the fields
(`sameContents_iff`). They do so alone where no name holds a zero and the fields that two snapshots
have in common are of one size (`Comparable.sameContents_iff`).
-/

namespace ParamSweep.Integrity

variable {x y : Float} {xs ys : List Float} {field field' : String} {s t : Snapshot}

/-! ### Samples -/

theorem length_sampleBytes (x : Float) : (sampleBytes x).length = 8 := by
  rw [sampleBytes, List.length_map, List.length_range]

theorem ofNat_mod_inj {m n : ℕ} :
    UInt8.ofNat (m % 256) = UInt8.ofNat (n % 256) ↔ m % 256 = n % 256 := by
  rw [← UInt8.toNat_inj, UInt8.toNat_ofNat', UInt8.toNat_ofNat']
  omega

/-- A number of so many bytes is determined by its bytes. -/
theorem eq_of_bytes : ∀ {k m n : ℕ}, m < 256 ^ k → n < 256 ^ k →
    (∀ i < k, m / 256 ^ i % 256 = n / 256 ^ i % 256) → m = n
  | 0, m, n, hm, hn, _ => by omega
  | k + 1, m, n, hm, hn, h => by
    rw [Nat.pow_succ'] at hm hn
    have hlow : m % 256 = n % 256 := by simpa using h 0 (Nat.succ_pos k)
    have hhigh : m / 256 = n / 256 := by
      refine eq_of_bytes (Nat.div_lt_of_lt_mul hm) (Nat.div_lt_of_lt_mul hn) fun i hi => ?_
      rw [Nat.div_div_eq_div_mul, Nat.div_div_eq_div_mul, ← Nat.pow_succ']
      exact h (i + 1) (Nat.succ_lt_succ hi)
    omega

theorem sampleBytes_injective : Function.Injective sampleBytes := by
  intro x y h
  rw [← Float.toBits_inj, ← UInt64.toNat_inj]
  refine eq_of_bytes (k := 8) x.toBits.toNat_lt y.toBits.toNat_lt fun i hi => ?_
  have hbyte := congrArg (·[i]?) h
  simp only [sampleBytes, List.getElem?_map, List.getElem?_range hi, Option.map_some,
    Option.some_inj] at hbyte
  exact ofNat_mod_inj.1 hbyte

theorem length_flatMap_sampleBytes (xs : List Float) :
    (xs.flatMap sampleBytes).length = 8 * xs.length := by
  induction xs with
  | nil => rfl
  | cons x xs ih =>
    rw [List.flatMap_cons, List.length_append, length_sampleBytes, ih, List.length_cons]
    omega

theorem flatMap_sampleBytes_injective : Function.Injective (List.flatMap sampleBytes) := by
  intro xs
  induction xs with
  | nil =>
    intro ys h
    have hlength := congrArg List.length h
    rw [length_flatMap_sampleBytes, length_flatMap_sampleBytes] at hlength
    exact (List.length_eq_zero_iff.1 (by simpa using hlength.symm)).symm
  | cons x xs ih =>
    rintro (_ | ⟨y, ys⟩) h
    · have hlength := congrArg List.length h
      rw [length_flatMap_sampleBytes, length_flatMap_sampleBytes] at hlength
      simp at hlength
    · rw [List.flatMap_cons, List.flatMap_cons] at h
      obtain ⟨hfirst, hrest⟩ :=
        List.append_inj h ((length_sampleBytes x).trans (length_sampleBytes y).symm)
      rw [sampleBytes_injective hfirst, ih hrest]

/-! ### Names -/

theorem toList_loop_eq (bytes : ByteArray) (i : ℕ) (acc : List UInt8) :
    ByteArray.toList.loop bytes i acc = acc.reverse ++ bytes.data.toList.drop i := by
  fun_induction ByteArray.toList.loop bytes i acc with
  | case1 i acc h ih =>
    have hi : i < bytes.data.toList.length := by simpa using h
    rw [ih, List.drop_eq_getElem_cons hi]
    simp [ByteArray.get!, h]
  | case2 i acc h =>
    rw [List.drop_eq_nil_of_le (by simpa using h), List.append_nil]

theorem bytesOf_eq (text : String) : Digest.bytesOf text = text.toByteArray.data.toList := by
  rw [Digest.bytesOf, String.toUTF8_eq_toByteArray, ByteArray.toList, toList_loop_eq]
  rfl

theorem bytesOf_injective : Function.Injective Digest.bytesOf := by
  intro a b h
  rw [bytesOf_eq, bytesOf_eq, Array.toList_inj] at h
  exact String.toByteArray_inj.1 (ByteArray.ext h)

theorem bytesOf_eq_flatMap (text : String) :
    Digest.bytesOf text = text.toList.flatMap String.utf8EncodeChar := by
  rw [bytesOf_eq, ← String.utf8Encode_toList, List.utf8Encode, List.toList_data_toByteArray]

theorem zero_not_mem_utf8EncodeChar {c : Char} (h : c ≠ '\x00') :
    0 ∉ String.utf8EncodeChar c := by
  have hzero : ∀ n : ℕ, 0 = UInt8.ofNat n ↔ n % 256 = 0 := fun n => by
    rw [← UInt8.toNat_inj, UInt8.toNat_ofNat']
    exact eq_comm
  have hcode : c.val.toNat ≠ 0 := fun hcode =>
    h (Char.ext (UInt32.toNat_inj.1 hcode))
  rw [String.utf8EncodeChar]
  split_ifs <;> simp only [List.mem_cons, List.not_mem_nil, or_false, hzero] <;> omega

/-- Only the character zero is written with a zero. -/
theorem zero_not_mem_bytesOf {text : String} (h : '\x00' ∉ text.toList) :
    0 ∉ Digest.bytesOf text := by
  rw [bytesOf_eq_flatMap, List.mem_flatMap]
  rintro ⟨c, hc, hzero⟩
  exact zero_not_mem_utf8EncodeChar (fun heq => h (heq ▸ hc)) hzero

/-! ### Fields -/

/-- The snapshots have fields of the same names with the same bits. -/
def SameContents (s t : Snapshot) : Prop :=
  s.fields.map (fun (field, xs) => (field, xs.map Float.toBits)) =
    t.fields.map fun (field, xs) => (field, xs.map Float.toBits)

/-- The names of the fields and how many samples they have. -/
def shape (fields : Entries (List Float)) : List (String × ℕ) :=
  fields.map fun (field, xs) => (field, xs.length)

/-- No name holds a zero, and the fields that both snapshots have are of one size. -/
structure Comparable (s t : Snapshot) : Prop where
  names : ∀ field, field ∈ s.fields.keys ∨ field ∈ t.fields.keys → '\x00' ∉ field.toList
  sizes : ∀ field xs ys, (field, xs) ∈ s.fields → (field, ys) ∈ t.fields → xs.length = ys.length

theorem sameContents_iff_fields : SameContents s t ↔ s.fields = t.fields := by
  refine (List.map_injective_iff.2 ?_).eq_iff
  rintro ⟨field, xs⟩ ⟨field', ys⟩ h
  obtain ⟨rfl, hbits⟩ := Prod.mk.inj h
  rw [List.map_injective_iff.2 (fun _ _ h => Float.toBits_inj.1 h) hbits]

/-- The bytes of fields. -/
def fieldsBytes (fields : Entries (List Float)) : List UInt8 :=
  fields.flatMap fun (field, samples) => fieldBytes field samples

theorem fieldsBytes_cons (field : String) (xs : List Float) (rest : Entries (List Float)) :
    fieldsBytes ((field, xs) :: rest) =
      Digest.bytesOf field ++ 0 :: (xs.flatMap sampleBytes ++ fieldsBytes rest) := by
  show (Digest.bytesOf field ++ 0 :: xs.flatMap sampleBytes) ++ fieldsBytes rest = _
  rw [List.append_assoc, List.cons_append]

theorem fieldsBytes_cons_ne_nil (p : String × List Float) (rest : Entries (List Float)) :
    fieldsBytes (p :: rest) ≠ [] := by
  rw [fieldsBytes_cons]
  simp

/-- The bytes of samples can be told from what follows if their number is known. -/
theorem samples_append_inj {behind behind' : List UInt8} (hsize : xs.length = ys.length)
    (h : xs.flatMap sampleBytes ++ behind = ys.flatMap sampleBytes ++ behind') :
    xs = ys ∧ behind = behind' := by
  have hlength : (xs.flatMap sampleBytes).length = (ys.flatMap sampleBytes).length := by
    rw [length_flatMap_sampleBytes, length_flatMap_sampleBytes, hsize]
  obtain ⟨hsamples, hbehind⟩ := List.append_inj h hlength
  exact ⟨flatMap_sampleBytes_injective hsamples, hbehind⟩

/-- Fields of one shape are determined by their bytes. -/
theorem fieldsBytes_inj_of_shape {fields fields' : Entries (List Float)}
    (hshape : shape fields = shape fields') (h : fieldsBytes fields = fieldsBytes fields') :
    fields = fields' := by
  induction fields generalizing fields' with
  | nil => exact (List.map_eq_nil_iff.1 hshape.symm).symm
  | cons p rest ih =>
    obtain ⟨field, xs⟩ := p
    cases fields' with
    | nil => cases hshape
    | cons p' rest' =>
      obtain ⟨field', ys⟩ := p'
      obtain ⟨hfirst, hrest⟩ := List.cons.inj hshape
      obtain ⟨rfl, hsize⟩ := Prod.mk.inj hfirst
      rw [fieldsBytes_cons, fieldsBytes_cons, List.append_cancel_left_eq, List.cons.injEq] at h
      obtain ⟨rfl, hbehind⟩ := samples_append_inj hsize h.2
      rw [ih hrest hbehind]

/-- What stands before the first of some item is determined, and so is what stands behind it. -/
theorem append_first_inj {α : Type} {c : α} {a b behind behind' : List α} (ha : c ∉ a)
    (hb : c ∉ b) (h : a ++ c :: behind = b ++ c :: behind') : a = b ∧ behind = behind' := by
  induction a generalizing b with
  | nil =>
    cases b with
    | nil => exact ⟨rfl, (List.cons.inj h).2⟩
    | cons d b => exact absurd (List.mem_cons.2 (.inl (List.cons.inj h).1)) hb
  | cons d a ih =>
    rw [List.mem_cons, not_or] at ha
    cases b with
    | nil => exact absurd (List.cons.inj h).1.symm ha.1
    | cons d' b =>
      rw [List.mem_cons, not_or] at hb
      obtain ⟨rfl, hrest⟩ := List.cons.inj h
      obtain ⟨rfl, rfl⟩ := ih ha.2 hb.2 hrest
      exact ⟨rfl, rfl⟩

/-- Where names hold no zero and common fields are of one size, bytes determine the fields. -/
theorem fieldsBytes_inj_of_sizes {fields fields' : Entries (List Float)}
    (hnames : ∀ field, field ∈ fields.keys ∨ field ∈ fields'.keys → '\x00' ∉ field.toList)
    (hsizes : ∀ field xs ys, (field, xs) ∈ fields → (field, ys) ∈ fields' → xs.length = ys.length)
    (h : fieldsBytes fields = fieldsBytes fields') : fields = fields' := by
  induction fields generalizing fields' with
  | nil =>
    cases fields' with
    | nil => rfl
    | cons p' rest' => exact absurd h.symm (fieldsBytes_cons_ne_nil p' rest')
  | cons p rest ih =>
    cases fields' with
    | nil => exact absurd h (fieldsBytes_cons_ne_nil p rest)
    | cons p' rest' =>
      obtain ⟨field, xs⟩ := p
      obtain ⟨field', ys⟩ := p'
      rw [fieldsBytes_cons, fieldsBytes_cons] at h
      obtain ⟨hfield, hbehind⟩ := append_first_inj
        (zero_not_mem_bytesOf (hnames field (.inl List.mem_cons_self)))
        (zero_not_mem_bytesOf (hnames field' (.inr List.mem_cons_self))) h
      obtain rfl := bytesOf_injective hfield
      obtain ⟨rfl, hrest⟩ := samples_append_inj
        (hsizes field xs ys List.mem_cons_self List.mem_cons_self) hbehind
      have hbelow := ih (fun other hother => hnames other
          (hother.imp (List.mem_cons_of_mem _) (List.mem_cons_of_mem _)))
        (fun other xs ys hxs hys => hsizes other xs ys (List.mem_cons_of_mem _ hxs)
          (List.mem_cons_of_mem _ hys)) hrest
      rw [hbelow]

/-! ### Snapshots -/

/-- Two snapshots have the same contents if they have the same bytes and the same shape. -/
theorem sameContents_iff :
    SameContents s t ↔ contentBytes s = contentBytes t ∧ shape s.fields = shape t.fields := by
  rw [sameContents_iff_fields]
  constructor
  · intro h
    exact ⟨congrArg fieldsBytes h, congrArg shape h⟩
  · rintro ⟨hbytes, hshape⟩
    exact fieldsBytes_inj_of_shape hshape hbytes

theorem Comparable.sameContents_iff (h : Comparable s t) :
    SameContents s t ↔ contentBytes s = contentBytes t := by
  rw [sameContents_iff_fields]
  exact ⟨congrArg fieldsBytes, fieldsBytes_inj_of_sizes h.names h.sizes⟩

/-- A sample that spells a name of seven bytes may as well be the name of another field. -/
theorem contentBytes_split {name : String} (h : sampleBytes x = Digest.bytesOf name ++ [0])
    (time time' : Float) (before after : Entries (List Float)) (field : String)
    (xs ys : List Float) :
    contentBytes ⟨time, before ++ (field, xs ++ x :: ys) :: after⟩ =
      contentBytes ⟨time', before ++ (field, xs) :: (name, ys) :: after⟩ := by
  show fieldsBytes (before ++ (field, xs ++ x :: ys) :: after) =
    fieldsBytes (before ++ (field, xs) :: (name, ys) :: after)
  have happend : ∀ rest, fieldsBytes (before ++ rest) = fieldsBytes before ++ fieldsBytes rest :=
    fun rest => List.flatMap_append
  rw [happend, happend, fieldsBytes_cons, fieldsBytes_cons, fieldsBytes_cons, List.flatMap_append,
    List.flatMap_cons, h]
  simp only [List.append_assoc, List.cons_append, List.nil_append]

end ParamSweep.Integrity
