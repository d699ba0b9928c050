import Tr6260.SwPackage.Emission

/-!
# The slices of a partition

The tables of a partition describe consecutive pieces of its new firmware. They tile it
exactly when there are as many as the file has pieces and no length is cut off by its
32-bit field.
-/

namespace Tr6260

open CString ByteMem

/-! ## Tables -/

/-- The arrays of a table have their sizes. -/
structure SectionTable.Wf (row : SectionTable) : Prop where
  sectionName : row.sectionName.length = 16
  reserve : row.reserve.length = 6
  hashf : row.hashf.length = 32
  hashb : row.hashb.length = 32

theorem SectionTable.Wf.length_bytes {row : SectionTable} (wf : row.Wf) :
    row.bytes.length = sizeofSectionTable := by
  rcases wf with ⟨name, reserve, hashf, hashb⟩
  simp only [SectionTable.bytes, List.length_append, length_leBytes, List.length_cons,
    List.length_nil, name, reserve, hashf, hashb]
  rfl

theorem PkgHeader.Wf.length_bytes {header : PkgHeader} (wf : header.Wf) :
    header.bytes.length = sizeofPkgHeader := by
  rcases wf with ⟨magic, src, dst⟩
  simp only [PkgHeader.bytes, List.length_append, length_leBytes, List.length_cons,
    List.length_nil, List.length_replicate, magic, src, dst]
  rfl

/-- The table of slice `i`, as far as the layout is concerned. -/
structure RowShape (env : PkgEnv) (opt : SectionOpt) (i : Nat) (row : SectionTable)
    (patch : List UInt8) : Prop where
  wf : row.Wf
  patchSize : row.patchSize = UInt32.ofNat patch.length
  addrb : row.addrb = opt.addrb + UInt32.ofInt opt.partSize * UInt32.ofNat i
  addrbLen : row.addrbLen =
    UInt32.ofNat (piece (totalCount opt (opt.newFile env).length) i (opt.newFile env)).length

section Rows

variable {env : PkgEnv} {opt : SectionOpt} {i : Nat} {patchOffset : UInt32} {row : SectionTable}
variable {patch : List UInt8}

theorem length_piece (size i : Nat) (file : List UInt8) :
    (piece size i file).length = min size (file.length - i * size) := by
  rw [piece, List.length_take, List.length_drop]

theorem diffSlice_shape (wf : opt.Wf) {oldSlice newSlice : List UInt8} {oldover : Bool}
    (done : diffSlice env opt i patchOffset oldSlice newSlice oldover = some (row, patch)) :
    row.Wf ∧ row.patchSize = UInt32.ofNat patch.length ∧
      row.addrb = opt.addrb + UInt32.ofInt opt.partSize * UInt32.ofNat i ∧
      row.addrbLen = UInt32.ofNat newSlice.length ∧ UInt32.ofNat newSlice.length ≠ 0 := by
  have name : (opt.sectionName.take 16).length = 16 := by
    rw [List.length_take, wf.sectionName]
    rfl
  have reserve (prop : List UInt8) : (copyName (List.replicate 6 0) prop).length = 6 :=
    length_copyName _ _
  unfold diffSlice at done
  split at done
  · cases done
  · next nonempty =>
    dsimp only at done
    split at done
    · rcases Option.bind_eq_some_iff.mp done with ⟨made, -, same⟩
      cases same
      exact ⟨⟨name, reserve _, rfl, env.length_sha256 _⟩, rfl, rfl, rfl, nonempty⟩
    · rcases Option.bind_eq_some_iff.mp done with ⟨made, -, same⟩
      cases same
      exact ⟨⟨name, reserve _, env.length_sha256 _, env.length_sha256 _⟩, rfl, rfl, rfl, nonempty⟩

theorem totalSlice_shape (wf : opt.Wf) {fileLen : Nat} {read : List UInt8}
    (done : totalSlice env opt fileLen i patchOffset read = some (row, patch)) :
    row.Wf ∧ row.patchSize = UInt32.ofNat patch.length ∧
      row.addrb = opt.addrb + UInt32.ofInt opt.partSize * UInt32.ofNat i ∧
      row.addrbLen = UInt32.ofNat read.length := by
  have name : (opt.sectionName.take 16).length = 16 := by
    rw [List.length_take, wf.sectionName]
    rfl
  unfold totalSlice at done
  dsimp only at done
  split at done
  · rcases Option.bind_eq_some_iff.mp done with ⟨made, -, same⟩
    cases same
    exact ⟨⟨name, length_copyName _ _, rfl, env.length_sha256 _⟩, rfl, rfl, rfl⟩
  · cases done
    refine ⟨⟨name, rfl, rfl, env.length_sha256 _⟩, ?_, rfl, rfl⟩
    have short : (UInt32.ofNat read.length).toNat ≤ read.length := by
      rw [UInt32.toNat_ofNat']
      exact Nat.mod_le ..
    rw [List.length_take, Nat.min_eq_left short, UInt32.ofNat_toNat]

theorem partSlice_shape (wf : opt.Wf)
    (done : partSlice env opt i patchOffset = some (row, patch)) :
    RowShape env opt i row patch := by
  unfold partSlice at done
  split at done
  · rcases diffSlice_shape wf done with ⟨rowWf, size, addr, len, nonempty⟩
    refine ⟨rowWf, size, addr, ?_⟩
    rw [len, totalCount]
    split
    · rfl
    · next zero =>
      -- nothing can be read with size 0
      rw [not_not] at zero
      rw [zero] at nonempty
      exact absurd rfl nonempty
  · rcases totalSlice_shape wf done with ⟨rowWf, size, addr, len⟩
    exact ⟨rowWf, size, addr, len⟩

end Rows

/-! ## How many slices -/

/-- The number of pieces of a file. -/
def sliceCount (opt : SectionOpt) (fileLen : Nat) : Nat :=
  if opt.partSize = 0 then 1
  else fileLen / toSize opt.partSize + if fileLen % toSize opt.partSize ≠ 0 then 1 else 0

section Count

variable {opt : SectionOpt} {fileLen : Nat}

theorem toSize_pos (range : -2 ^ 31 ≤ opt.partSize ∧ opt.partSize < 2 ^ 31)
    (nonzero : opt.partSize ≠ 0) : 0 < toSize opt.partSize := by
  rw [toSize]
  omega

/-- The pieces before the last one do not reach the end of the file, and all of them do. -/
theorem sliceCount_spec (fileLen : Nat) (range : -2 ^ 31 ≤ opt.partSize ∧ opt.partSize < 2 ^ 31) :
    fileLen ≤ sliceCount opt fileLen * totalCount opt fileLen ∧
      ∀ i, i < sliceCount opt fileLen → i * totalCount opt fileLen < fileLen ∨ i = 0 := by
  unfold sliceCount totalCount
  by_cases zero : opt.partSize = 0
  · rw [if_pos zero, if_neg (not_not.mpr zero), Nat.one_mul]
    exact ⟨Nat.le_refl _, fun i low => .inr (by omega)⟩
  · rw [if_neg zero, if_pos zero]
    have pos := toSize_pos range zero
    have parts := Nat.div_add_mod fileLen (toSize opt.partSize)
    have rest := Nat.mod_lt fileLen pos
    rw [Nat.mul_comm] at parts
    split
    · next some_ =>
      rw [Nat.succ_mul]
      refine ⟨by omega, fun i low => .inl ?_⟩
      have bound : i * toSize opt.partSize ≤ fileLen / toSize opt.partSize * toSize opt.partSize :=
        Nat.mul_le_mul_right _ (by omega)
      omega
    · next none_ =>
      rw [Nat.add_zero]
      refine ⟨by omega, fun i low => .inl ?_⟩
      have bound : (i + 1) * toSize opt.partSize ≤
          fileLen / toSize opt.partSize * toSize opt.partSize := Nat.mul_le_mul_right _ low
      rw [Nat.succ_mul] at bound
      omega

theorem toInt_natCast (n : Nat) : (toInt n).toNat ≤ n ∧ (n < 2 ^ 31 → toInt n = n) := by
  refine ⟨?_, fun small => toInt_of_range (by omega) (by omega)⟩
  by_cases small : n < 2 ^ 31
  · rw [toInt_of_range (by omega) (by omega)]
    omega
  · have bound := (toInt_range n).2
    omega

theorem toInt_toInt_add (n m : Int) : toInt (toInt n + m) = toInt (n + m) := Int.bmod_add_bmod ..

/-- The `int` the tool works with is the number of pieces as long as that is small, and never
more. -/
theorem sliceNum_eq (nonzero : opt.partSize ≠ 0) :
    sliceNum fileLen opt.partSize = toInt (sliceCount opt fileLen) := by
  unfold sliceNum sliceCount
  rw [if_neg nonzero]
  dsimp only
  split
  · rw [toInt_toInt_add, Int.natCast_add]
    rfl
  · rw [Nat.add_zero]
    rfl

theorem sectionNum_spec {env : PkgEnv} (counted : opt.Counted env.files) :
    opt.sectionNum.toNat ≤ sliceCount opt (opt.newFile env).length ∧
      (sliceCount opt (opt.newFile env).length < 2 ^ 31 →
        opt.sectionNum = sliceCount opt (opt.newFile env).length) := by
  rcases counted with ⟨zero, one⟩ | ⟨nonzero, file, found, num⟩
  · rw [sliceCount, if_pos zero, one]
    exact ⟨Nat.le_refl _, fun _ => rfl⟩
  · have new : opt.newFile env = file := by
      rw [SectionOpt.newFile, found]
      rfl
    rw [new, num, sliceNum_eq nonzero]
    exact toInt_natCast _

end Count

/-! ## Tiling -/

/-- Tables that describe a region of 32-bit addresses without gap or overlap. -/
def Tiles : UInt32 → Nat → List SectionTable → Prop
  | _, len, [] => len = 0
  | start, len, row :: rows =>
    row.addrb = start ∧ row.addrbLen.toNat ≤ len ∧
      Tiles (start + row.addrbLen) (len - row.addrbLen.toNat) rows

/-- The bytes tables describe. -/
def described (rows : List SectionTable) : Nat := (rows.map fun row => row.addrbLen.toNat).sum

theorem Tiles.described_eq {start : UInt32} {len : Nat} {rows : List SectionTable}
    (tiles : Tiles start len rows) : described rows = len := by
  induction rows generalizing start len with
  | nil => exact tiles.symm
  | cons row rows ih =>
    rcases tiles with ⟨-, fits, rest⟩
    rw [described, List.map_cons, List.sum_cons, ← described, ih rest]
    omega

section Tile

variable {env : PkgEnv} {opt : SectionOpt} {first : Nat} {es : List Emitted}

/-- The tables are the slices of a partition from `first` on. -/
def RowsFrom (env : PkgEnv) (opt : SectionOpt) (first : Nat) (es : List Emitted) : Prop :=
  ∀ i e, es[i]? = some e → RowShape env opt (first + i) e.row e.patch

theorem RowsFrom.cons {e : Emitted} (rows : RowsFrom env opt first (e :: es)) :
    RowShape env opt first e.row e.patch ∧ RowsFrom env opt (first + 1) es := by
  refine ⟨rows 0 e rfl, fun i e' found => ?_⟩
  have next := rows (i + 1) e' found
  rwa [Nat.add_comm i 1, ← Nat.add_assoc] at next

/-- The length of a table is at most that of the piece. -/
theorem RowShape.addrbLen_le {i : Nat} {row : SectionTable} {patch : List UInt8}
    (shape : RowShape env opt i row patch) :
    row.addrbLen.toNat ≤
      min (totalCount opt (opt.newFile env).length)
        ((opt.newFile env).length - i * totalCount opt (opt.newFile env).length) := by
  rw [shape.addrbLen, UInt32.toNat_ofNat', length_piece]
  exact Nat.mod_le ..

theorem RowsFrom.described_le (rows : RowsFrom env opt first es) :
    described (es.map Emitted.row) ≤ es.length * totalCount opt (opt.newFile env).length ∧
      described (es.map Emitted.row) ≤
        (opt.newFile env).length - first * totalCount opt (opt.newFile env).length := by
  induction es generalizing first with
  | nil => exact ⟨Nat.zero_le _, Nat.zero_le _⟩
  | cons e es ih =>
    rcases rows.cons with ⟨shape, rest⟩
    rcases ih rest with ⟨pieces, file⟩
    have here := shape.addrbLen_le
    rw [Nat.succ_mul] at file
    rw [List.map_cons, described, List.map_cons, List.sum_cons, ← described, List.length_cons,
      Nat.succ_mul]
    omega

/-- Enough pieces, none of them cut off, tile the file. -/
theorem RowsFrom.tiles (range : -2 ^ 31 ≤ opt.partSize ∧ opt.partSize < 2 ^ 31)
    (rows : RowsFrom env opt first es)
    (all : first + es.length = sliceCount opt (opt.newFile env).length)
    (small : opt.partSize ≤ 0 → (opt.newFile env).length < 2 ^ 32) :
    Tiles (opt.addrb + UInt32.ofInt opt.partSize * UInt32.ofNat first)
      ((opt.newFile env).length - first * totalCount opt (opt.newFile env).length)
      (es.map Emitted.row) := by
  rcases sliceCount_spec (opt.newFile env).length range with ⟨reach, before⟩
  induction es generalizing first with
  | nil =>
    rw [List.length_nil, Nat.add_zero] at all
    rw [← all] at reach
    exact Nat.sub_eq_zero_of_le reach
  | cons e es ih =>
    rcases rows.cons with ⟨shape, rest⟩
    rw [List.length_cons] at all
    have len : e.row.addrbLen.toNat = min (totalCount opt (opt.newFile env).length)
        ((opt.newFile env).length - first * totalCount opt (opt.newFile env).length) := by
      rw [shape.addrbLen, UInt32.toNat_ofNat', length_piece]
      apply Nat.mod_eq_of_lt
      rw [totalCount]
      split
      · rw [toSize]
        omega
      · omega
    have next := ih rest (by omega)
    refine ⟨shape.addrb, by omega, ?_⟩
    have rest_ : (opt.newFile env).length - first * totalCount opt (opt.newFile env).length -
        e.row.addrbLen.toNat =
        (opt.newFile env).length - (first + 1) * totalCount opt (opt.newFile env).length := by
      rw [len, Nat.succ_mul]
      omega
    rw [rest_]
    cases es with
    | nil => exact next
    | cons e' es =>
      have full := before (first + 1) (by rw [List.length_cons] at all; omega)
      rw [Nat.succ_mul] at full
      -- a piece with one behind it is full, and its size is a positive `int`
      have size : 0 < opt.partSize := by
        by_contra negative
        have file := small (by omega)
        by_cases zero : opt.partSize = 0
        · rw [sliceCount, if_pos zero, List.length_cons] at all
          omega
        · rw [totalCount, if_pos zero, toSize] at full
          omega
      have step : e.row.addrbLen = UInt32.ofInt opt.partSize := by
        rw [← UInt32.toNat_inj, len, totalCount, if_pos (by omega)]
        rw [totalCount, if_pos (by omega)] at full
        rw [UInt32.ofInt, UInt32.toNat_ofNat']
        rw [toSize] at full ⊢
        omega
      have start : opt.addrb + UInt32.ofInt opt.partSize * UInt32.ofNat first + e.row.addrbLen =
          opt.addrb + UInt32.ofInt opt.partSize * UInt32.ofNat (first + 1) := by
        rw [step, UInt32.ofNat_add, UInt32.mul_add, UInt32.add_assoc]
        congr 2
        exact (UInt32.mul_one _).symm
      rw [start]
      exact next

/-- Tables that tile the file are as many as it has pieces, and a file in one piece is shorter
than 4 GiB. -/
theorem RowsFrom.of_tiles (range : -2 ^ 31 ≤ opt.partSize ∧ opt.partSize < 2 ^ 31)
    (rows : RowsFrom env opt 0 es)
    (most : es.length ≤ sliceCount opt (opt.newFile env).length)
    (one : opt.partSize = 0 → es.length = 1) {start : UInt32}
    (tiles : Tiles start (opt.newFile env).length (es.map Emitted.row)) :
    es.length = sliceCount opt (opt.newFile env).length ∧
      (opt.partSize ≤ 0 → (opt.newFile env).length < 2 ^ 32) := by
  rcases sliceCount_spec (opt.newFile env).length range with ⟨reach, before⟩
  have whole := tiles.described_eq
  have all : es.length = sliceCount opt (opt.newFile env).length := by
    by_contra fewer
    have bound := rows.described_le.1
    rcases before es.length (by omega) with short | none_
    · omega
    · rw [none_, Nat.zero_mul] at bound
      have empty : (opt.newFile env).length = 0 := by omega
      by_cases zero : opt.partSize = 0
      · rw [one zero] at none_
        omega
      · rw [sliceCount, if_neg zero, empty, Nat.zero_div, Nat.zero_mod] at most fewer
        exact fewer (by simpa using most)
  refine ⟨all, fun size => ?_⟩
  cases es with
  | nil =>
    rw [← all, List.length_nil, Nat.zero_mul] at reach
    omega
  | cons e es =>
    rcases rows.cons with ⟨shape, rest⟩
    have bound := rest.described_le.2
    rw [List.map_cons, described, List.map_cons, List.sum_cons, ← described] at whole
    have field := e.row.addrbLen.toNat_lt
    by_cases zero : opt.partSize = 0
    · rw [totalCount, if_neg (not_not.mpr zero)] at bound
      omega
    · rw [totalCount, if_pos zero, toSize] at bound
      omega

end Tile

end Tr6260
