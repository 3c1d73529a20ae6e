import Odbcpp.Odbc.Rowset

/-!
# Where a fetch writes

The fields an application has bound, and that `fetch_impl` and `bulk_operations` write nowhere else.
By the checks made before the first write no field of a slot runs over the end of the address space,
so the addresses computed later are those of the slots.
-/

namespace Odbcpp.Odbc

open Foundation Util BoundResultField Output FetchOutcome List Option

variable {binding : BoundResultField} {target : CType} {length : Int} {extent : Nat}
  {info : Option ColumnInfo} {parsers : Parsers} {platform : Platform} {sqlType : SqlType}

/-- A field in each slot of an application's buffers. -/
structure BoundField where
  base : Nat
  offset : Nat
  stride : Nat
  extent : Nat
  slots : Nat
deriving DecidableEq

variable (machine : Machine)

def BoundField.Contains (field : BoundField) (address : Nat) : Prop :=
  ∃ slot byte, slot < field.slots ∧ byte < field.extent ∧
    address = field.base + field.offset + slot * field.stride + byte ∧
    address ≤ machine.addressMax

/-- The field of a descriptor with a base address, at the offset and the strides the
application asked for. -/
def RowDescriptor.field (ard : RowDescriptor) (memory : Memory) (base extent : Nat) : BoundField :=
  { base := base, offset := ard.bindingOffset memory, extent := extent, slots := ard.arraySize
    stride := if ard.bindType = 0 then extent else ard.bindType }

def Machine.bookmarkExtent (settings : FetchSettings) (record : BoundResultField) : Nat :=
  if settings.bookmarkMode = .fixed then
    machine.fixedBookmarkCTypeWidth record.conciseType record.octetLength.toNat
  else bookmarkBytes

/-- The fields a statement may write: statuses, the count, and data, indicator and length of bound
columns and the bookmark. -/
inductive IsBound (machine : Machine) (memory : Memory) (settings : FetchSettings)
    (result : ResultSet) : BoundField → Prop
  | status {base} (pointer : settings.arrayStatusPtr = some base) :
      IsBound machine memory settings result ⟨base, 0, 2, 2, settings.ard.arraySize⟩
  | fetched {base} (pointer : settings.rowsProcessedPtr = some base) :
      IsBound machine memory settings result ⟨base, 0, 0, machine.lengthSize, 1⟩
  | data {binding info base extent}
      (column : (binding, info) ∈ settings.ard.records.zip result.columnInfo)
      (pointer : binding.dataPtr = some base)
      (sized : boundColumnStride (binding.targetType info.sqlType) binding.octetLength =
        some extent) :
      IsBound machine memory settings result (settings.ard.field memory base extent)
  | length {binding base} (record : binding ∈ settings.ard.records)
      (pointer : binding.indicatorPtr = some base ∨ binding.octetLengthPtr = some base) :
      IsBound machine memory settings result (settings.ard.field memory base machine.lengthSize)
  | bookmark {binding base}
      (record : settings.ard.bookmarkRecord = some binding) (pointer : binding.dataPtr = some base) :
      IsBound machine memory settings result
        (settings.ard.field memory base (machine.bookmarkExtent settings binding))
  | bookmarkLength {binding base}
      (record : settings.ard.bookmarkRecord = some binding)
      (pointer : binding.indicatorPtr = some base ∨ binding.octetLengthPtr = some base) :
      IsBound machine memory settings result (settings.ard.field memory base machine.lengthSize)

/-- Every byte of the writes lies in a bound field. -/
def Within (memory : Memory) (settings : FetchSettings) (result : ResultSet)
    (writes : List Write) : Prop :=
  ∀ write ∈ writes, ∀ byte < write.output.size, ∃ field,
    IsBound machine memory settings result field ∧ field.Contains machine (write.address + byte)

section Writes

variable {machine : Machine} {memory : Memory} {settings : FetchSettings} {result : ResultSet}
  {first rest : List Write}

theorem within_nil : Within machine memory settings result [] := nofun

theorem Within.append (before : Within machine memory settings result first)
    (after : Within machine memory settings result rest) :
    Within machine memory settings result (first ++ rest) := by
  exact forall_mem_append.mpr ⟨before, after⟩

theorem within_flatMap {α : Type} {items : List α} {writes : α → List Write}
    (each : ∀ item ∈ items, Within machine memory settings result (writes item)) :
    Within machine memory settings result (items.flatMap writes) := by
  intro write written
  obtain ⟨item, isItem, here⟩ := mem_flatMap.mp written
  exact each item isItem write here

end Writes

/-! ### Conversions stay within their field -/

@[simp] theorem canonicalCType_canonicalCType (cType : CType) :
    cType.canonicalCType.canonicalCType = cType.canonicalCType := by
  cases cType <;> rfl

@[simp] theorem boundColumnStride_canonicalCType (cType : CType) (length : Int) :
    boundColumnStride cType.canonicalCType length = boundColumnStride cType length := by
  simp [boundColumnStride]

theorem binaryTextLength_le (platform : Platform) (target : CType) (text : Bytes)
    (nonnegative : 0 ≤ length) : 0 ≤ binaryTextLength platform target text length ∧
      binaryTextLength platform target text length ≤ length := by
  unfold binaryTextLength
  dsimp only
  generalize (if target = CType.wchar then platform.wcharSize else 1) = unitSize
  split_ifs
  · have whole := Nat.div_mul_le_self length.toNat unitSize
    have fewer : (length.toNat / unitSize - 1) * unitSize ≤ length.toNat / unitSize * unitSize :=
      Nat.mul_le_mul_right _ (Nat.sub_le _ _)
    omega
  · exact ⟨nonnegative, le_rfl⟩

theorem boundColumnStride_mono {shorter : Int} (nonnegative : 0 ≤ length → 0 ≤ shorter)
    (ordered : 0 ≤ length → shorter ≤ length)
    (sized : boundColumnStride target length = some extent) :
    ∃ smaller ≤ extent, boundColumnStride target shorter = some smaller := by
  unfold boundColumnStride at sized ⊢
  split at sized
  all_goals try
    split_ifs at sized with negative
    cases sized
    exact ⟨shorter.toNat, by omega, if_neg (by omega)⟩
  exact ⟨extent, le_rfl, sized⟩

theorem Parsers.size_convertInto_le {value text : Bytes}
    (sized : boundColumnStride target binding.octetLength = some extent) :
    (parsers.convertInto platform binding info sqlType target value text).output.size ≤ extent := by
  have binary : target = .binary → extent = binding.octetLength.toNat := by
    rintro rfl
    simp only [boundColumnStride, CType.canonicalCType] at sized
    split_ifs at sized
    exact (Option.some.inj sized).symm
  unfold Parsers.convertInto
  split
  · rename_i timestamp
    simp only [Bool.and_eq_true, Bool.or_eq_true, decide_eq_true_eq] at timestamp
    rcases timestamp.2 with rfl | rfl
    all_goals
      cases sized
      exact size_storeFixed_le 16 _
  split
  · rename_i isBit
    simp only [Bool.and_eq_true, decide_eq_true_eq] at isBit
    rw [binary isBit.2]
    exact size_convertBitResultToBinary_le _ _
  split
  · rename_i isFixed
    simp only [Bool.and_eq_true, decide_eq_true_eq] at isFixed
    rw [binary isFixed.1]
    exact Parsers.size_convertFixedResultToBinary_le
  split
  · rename_i isCharacter
    simp only [Bool.and_eq_true, decide_eq_true_eq] at isCharacter
    rw [binary isCharacter.2]
    exact size_convertBytes_le _ _
  -- The one conversion that may be given less than the bound length.
  · obtain ⟨smaller, isSmaller, sizedSmaller⟩ : ∃ smaller ≤ extent, boundColumnStride target
        (if sqlType.isBinary && (target = .char || target = .wchar) then
          binaryTextLength platform target text binding.octetLength
        else binding.octetLength) = some smaller := by
      split
      · exact boundColumnStride_mono
          (fun nonnegative => (binaryTextLength_le platform target text nonnegative).1)
          (fun nonnegative => (binaryTextLength_le platform target text nonnegative).2) sized
      · exact ⟨extent, le_rfl, sized⟩
    exact (Parsers.size_convertData_le sizedSmaller).trans isSmaller

theorem BoundResultField.size_convert_le {value conversion} (bound : binding.dataPtr.isSome)
    (sized : boundColumnStride target binding.octetLength = some extent)
    (converted : binding.convert platform parsers info sqlType target value = .ok conversion) :
    conversion.output.size ≤ extent := by
  rw [convert, if_pos bound, convertData] at converted
  split at converted
  · cases converted
    simp [size]
  split at converted
  · cases converted
    simp [size]
  split at converted
  · cases converted
  split at converted
  · cases converted
  · cases converted
    exact Parsers.size_convertInto_le sized

namespace Machine

variable {machine : Machine} {memory : Memory} {settings : FetchSettings} {result : ResultSet}
  {layout : RowLayout}

variable {binding : BoundResultField} {cursor : Cursor} {extent index : Nat} {base : Option Nat}
  {slot : Nat}

/-! ### What the checks say about one slot -/

/-- A field of a slot ends in the address space, if it has any bytes. -/
def SlotFits (layout : RowLayout) (slot : Nat) (base : Option Nat) (extent : Nat) : Prop :=
  ∀ address, base = some address → 0 < extent →
    address + layout.bindingOffset + slot * layout.stride extent + extent ≤ machine.addressMax

/-- The three areas of a binding fit in the memory of the slot. -/
structure RecordFits (machine : Machine) (layout : RowLayout) (slot : Nat)
    (binding : BoundResultField) (extent : Nat) : Prop where
  data : machine.SlotFits layout slot binding.dataPtr extent
  indicator : machine.SlotFits layout slot binding.indicatorPtr machine.lengthSize
  octetLength : machine.SlotFits layout slot binding.octetLengthPtr machine.lengthSize

theorem slotFits_of_fieldSpanFits (inside : slot < layout.size)
    (checked : machine.fieldSpanFits layout base extent) :
    machine.SlotFits layout slot base extent := by
  rintro address rfl nonempty
  simp only [fieldSpanFits, Bool.and_eq_true, decide_eq_true_eq] at checked
  obtain ⟨-, spans⟩ := checked
  unfold RowLayout.stride
  split_ifs at spans ⊢ with byColumn
  · simp only [spanFits, Bool.or_eq_true, decide_eq_true_eq] at spans
    exact element_le_of_count_le inside (by omega) nonempty
  simp only [rowSpanFits, Bool.or_eq_true, Bool.and_eq_true, decide_eq_true_eq] at spans
  obtain empty | ⟨fits, rows⟩ := spans
  · omega
  · exact field_le_of_count_le inside fits rows nonempty

theorem recordFits_of_recordSpansFit (inside : slot < layout.size)
    (checked : machine.recordSpansFit layout binding extent) :
    machine.RecordFits layout slot binding extent := by
  simp only [recordSpansFit, Bool.and_eq_true] at checked
  obtain ⟨⟨data, indicator⟩, octetLength⟩ := checked
  exact ⟨slotFits_of_fieldSpanFits inside data, slotFits_of_fieldSpanFits inside indicator,
    slotFits_of_fieldSpanFits inside octetLength⟩

theorem slotFits_of_bulkFieldFits (checked : machine.bulkFieldFits layout base slot extent) :
    machine.SlotFits layout slot base extent := by
  rintro address rfl nonempty
  simp only [bulkFieldFits, all_some, bulkField] at checked
  split_ifs at checked with offset step ends
  · cases checked
  · cases checked
  · cases checked
  · omega

/-! ### Writes to the fields of a slot -/

theorem slotAddress_eq {base offset slot stride : Nat}
    (fits : base + offset + slot * stride ≤ machine.addressMax) :
    machine.slotAddress base offset slot stride = base + offset + slot * stride := by
  have sizes := machine.addressMax_le
  unfold slotAddress
  rw [Nat.mod_eq_of_lt (by omega : slot * stride < machine.sizeMax + 1),
    Nat.mod_eq_of_lt (by omega)]

section Slot

variable {slot : Nat} (inside : slot < settings.ard.arraySize) {pointer : Option Nat}

include inside

theorem within_fieldAddress {extent output} (bound : ∀ base, pointer = some base →
      IsBound machine memory settings result (settings.ard.field memory base extent))
    (fits : machine.SlotFits (settings.ard.layout memory) slot pointer extent)
    (small : output.size ≤ extent) : Within machine memory settings result
      ((machine.fieldAddress (settings.ard.layout memory) slot pointer extent).toList.map
        fun address => ⟨address, output⟩) := by
  rcases pointer with _ | base
  · exact within_nil
  intro write written byte isByte
  simp only [fieldAddress, map_some, toList_some, map_cons, map_nil,
    mem_singleton] at written
  subst written
  have isByte : byte < extent := isByte.trans_le small
  have ends := fits base rfl (by omega)
  rw [slotAddress_eq (by omega)]
  refine ⟨_, bound base rfl, slot, byte, inside, isByte, rfl, ?_⟩
  dsimp only
  omega

theorem within_storeLength {value : Int} (bound : ∀ base, pointer = some base →
      IsBound machine memory settings result (settings.ard.field memory base machine.lengthSize))
    (fits : machine.SlotFits (settings.ard.layout memory) slot pointer machine.lengthSize) :
    Within machine memory settings result
      ((machine.fieldAddress (settings.ard.layout memory) slot pointer
        machine.lengthSize).toList.map fun address => machine.storeLength address value) :=
  within_fieldAddress inside bound fits (by simp [size])

omit inside in
theorem within_storeStatus {value} (inside : slot < settings.ard.arraySize)
    (checked : machine.spanFits settings.arrayStatusPtr settings.ard.arraySize 2) :
    Within machine memory settings result
      (machine.storeStatus settings.arrayStatusPtr slot value) := by
  rcases pointer : settings.arrayStatusPtr with _ | base
  · exact within_nil
  intro write written byte isByte
  rw [pointer] at checked
  simp only [spanFits, Bool.or_eq_true, decide_eq_true_eq] at checked
  have ends : base + slot * 2 + 2 ≤ machine.addressMax :=
    element_le_of_count_le inside (by omega) (by decide)
  simp only [storeStatus, mem_singleton] at written
  subst written
  rw [slotAddress_eq (by omega)]
  simp only [size, length_singleton, Bool.false_eq_true, if_false] at isByte
  refine ⟨_, .status pointer, slot, byte, inside, by simpa using isByte, rfl, ?_⟩
  dsimp only
  omega

end Slot

theorem within_storeStatuses {value : RowStatus} {count : Nat}
    (inside : count ≤ settings.ard.arraySize)
    (checked : machine.spanFits settings.arrayStatusPtr settings.ard.arraySize 2) :
    Within machine memory settings result
      (machine.storeStatuses settings.arrayStatusPtr count value) := by
  apply within_flatMap
  intro slot isSlot
  exact within_storeStatus ((mem_range.mp isSlot).trans_le inside) checked

theorem within_storeCount {count : Nat}
    (checked : machine.spanFits settings.rowsProcessedPtr 1 machine.lengthSize) :
    Within machine memory settings result
      (machine.storeCount settings.rowsProcessedPtr count) := by
  rcases pointer : settings.rowsProcessedPtr with _ | base
  · exact within_nil
  intro write written byte isByte
  rw [pointer] at checked
  simp only [spanFits, Bool.or_eq_true, decide_eq_true_eq] at checked
  simp only [storeCount, mem_singleton] at written
  subst written
  have isByte : byte < machine.lengthSize := by simpa [size] using isByte
  have ends : base + 0 * machine.lengthSize + machine.lengthSize ≤ machine.addressMax :=
    element_le_of_count_le Nat.one_pos (by omega) (by omega)
  refine ⟨_, .fetched pointer, 0, byte, Nat.one_pos, isByte, by simp, ?_⟩
  dsimp only
  omega

/-! ### One row -/

/-- What the checks say about a bound column in a slot: its fields fit, if its
conversion is supported. -/
def ColumnFits (layout : RowLayout) (slot : Nat) (sqlType : SqlType)
    (binding : BoundResultField) : Prop :=
  isConversionSupported sqlType (binding.targetType sqlType).canonicalCType →
    ∃ extent, columnExtent sqlType binding = some extent ∧
      machine.RecordFits layout slot binding extent

variable {parsers : Parsers} {bindings : RowBindings} {place : RowPlace} {cell : Option Bytes}
  {rows : List Nat}

theorem fetchBoundColumn_within {info : ColumnInfo} (inside : place.slot < settings.ard.arraySize)
    (record : settings.ard.records[index]? = some binding)
    (column : result.columnInfo[index]? = some info)
    (checked : machine.ColumnFits (settings.ard.layout memory) place.slot info.sqlType binding) :
    Within machine memory settings result
      (machine.fetchBoundColumn parsers result (settings.ard.layout memory) bindings place index
        binding cell).writes := by
  have isType : result.columnType index = info.sqlType := by
    simp only [ResultSet.columnType, column]
  have isRecord : binding ∈ settings.ard.records := mem_of_getElem? record
  have isColumn : (binding, info) ∈ settings.ard.records.zip result.columnInfo :=
    mem_of_getElem? (List.getElem?_zip_eq_some.mpr ⟨record, column⟩)
  unfold fetchBoundColumn
  rw [isType]
  dsimp only
  split
  · exact within_nil
  rename_i supported
  obtain ⟨extent, isExtent, fits⟩ := checked (by simpa using supported)
  have storesIndicator : ∀ value, Within machine memory settings result
      ((machine.fieldAddress (settings.ard.layout memory) place.slot binding.indicatorPtr
        machine.lengthSize).toList.map fun address => machine.storeLength address value) :=
    fun value => within_storeLength inside (fun _ pointer => .length isRecord (.inl pointer))
      fits.indicator
  have storesLength : ∀ value, Within machine memory settings result
      ((machine.fieldAddress (settings.ard.layout memory) place.slot binding.octetLengthPtr
        machine.lengthSize).toList.map fun address => machine.storeLength address value) :=
    fun value => within_storeLength inside (fun _ pointer => .length isRecord (.inr pointer))
      fits.octetLength
  generalize machine.fieldAddress (settings.ard.layout memory) place.slot binding.indicatorPtr
    machine.lengthSize = indicator at storesIndicator ⊢
  generalize machine.fieldAddress (settings.ard.layout memory) place.slot binding.octetLengthPtr
    machine.lengthSize = octetLength at storesLength ⊢
  split
  · split
    · exact within_nil
    · exact storesIndicator (-1)
  split
  · exact within_nil
  split
  · exact within_nil
  rename_i conversion converted
  have storesData : Within machine memory settings result
      ((machine.fieldAddress (settings.ard.layout memory) place.slot binding.dataPtr
        ((boundColumnStride (binding.targetType info.sqlType).canonicalCType
          binding.octetLength).getD 0)).toList.map fun address => ⟨address, conversion.output⟩) := by
    rcases pointer : binding.dataPtr with _ | base
    · exact within_nil
    have bound : binding.dataPtr.isSome := by simp [pointer]
    have sized : boundColumnStride (binding.targetType info.sqlType) binding.octetLength =
        some extent := by simpa [columnExtent, bound] using isExtent
    have data := fits.data
    rw [pointer] at data
    rw [boundColumnStride_canonicalCType, sized, getD_some]
    refine within_fieldAddress inside ?_ data ?_
    · rintro _ ⟨⟩
      exact .data isColumn pointer sized
    · exact size_convert_le bound
        (by rw [boundColumnStride_canonicalCType, sized]) converted
  have storesOutput : Within machine memory settings result
      (conversion.indicator.toList.flatMap fun length =>
        (if octetLength.isSome then octetLength else indicator).toList.map fun address =>
          machine.storeLength address length) := by
    apply within_flatMap
    intro length _
    split
    · exact storesLength length
    · exact storesIndicator length
  split
  · exact storesData.append storesOutput
  refine (storesData.append storesOutput).append ?_
  split
  · exact within_nil
  · exact storesIndicator 0

theorem within_andThen {first rest : RowFetch}
    (before : Within machine memory settings result first.writes)
    (after : Within machine memory settings result rest.writes) :
    Within machine memory settings result (first.andThen rest).writes := by
  unfold RowFetch.andThen
  split_ifs
  · exact before
  · exact before.append after

/-- The step over the columns, by induction on those left. -/
theorem fetchBoundColumns_within {columns}
    (inside : place.slot < settings.ard.arraySize)
    (checked : ∀ offset binding cell, columns[offset]? = some (binding, cell) →
      bindings.ignored (index + offset) = false → binding.isBound →
      ∃ info, settings.ard.records[index + offset]? = some binding ∧
      result.columnInfo[index + offset]? = some info ∧
      machine.ColumnFits (settings.ard.layout memory) place.slot info.sqlType binding) :
    Within machine memory settings result
      (machine.fetchBoundColumns parsers result (settings.ard.layout memory) bindings place index
        columns).writes := by
  induction columns generalizing index with
  | nil => exact within_nil
  | cons column rest ih =>
    obtain ⟨binding, cell⟩ := column
    have later : Within machine memory settings result
        (machine.fetchBoundColumns parsers result (settings.ard.layout memory) bindings place
          (index + 1) rest).writes := by
      apply ih
      intro offset binding cell isColumn
      have next := checked (offset + 1) binding cell isColumn
      rwa [show index + (offset + 1) = index + 1 + offset by omega] at next
    unfold fetchBoundColumns
    split
    · exact later
    rename_i fetched
    simp only [Bool.or_eq_true, Bool.not_eq_true', not_or, Bool.not_eq_true,
      Bool.not_eq_false] at fetched
    obtain ⟨info, record, isColumn, fits⟩ := checked 0 binding cell rfl fetched.1 fetched.2
    exact within_andThen (fetchBoundColumn_within inside record isColumn fits) later

theorem storeBookmark_within {token : Output}
    (inside : slot < settings.ard.arraySize) (record : settings.ard.bookmarkRecord = some binding)
    (isExtent : machine.bookmarkExtent settings binding = extent)
    (fits : machine.RecordFits (settings.ard.layout memory) slot binding extent)
    (small : token.size ≤ extent) : Within machine memory settings result
      (machine.storeBookmark (settings.ard.layout memory) slot binding extent token) := by
  have storesData : Within machine memory settings result
      ((machine.fieldAddress (settings.ard.layout memory) slot binding.dataPtr extent).toList.map
        fun address => ⟨address, token⟩) :=
    within_fieldAddress inside (fun _ pointer => isExtent ▸ .bookmark record pointer) fits.data
      small
  unfold storeBookmark
  refine (storesData.append ?_).append ?_
  · exact within_storeLength inside (fun _ pointer => .bookmarkLength record (.inr pointer))
      fits.octetLength
  split
  · exact within_nil
  · exact within_storeLength inside (fun _ pointer => .bookmarkLength record (.inl pointer))
      fits.indicator

theorem recordFits_of_unbound (unbound : ¬ binding.isBound) :
    machine.RecordFits layout slot binding extent := by
  simp only [isBound, Bool.or_eq_true, not_or, not_isSome_iff_eq_none]
    at unbound
  obtain ⟨⟨data, indicator⟩, octetLength⟩ := unbound
  constructor
  · simp [SlotFits, data]
  · simp [SlotFits, indicator]
  · simp [SlotFits, octetLength]

theorem fixedBookmarkCTypeWidth_ge (platform : Platform) (target : CType) (length : Nat) :
    4 ≤ platform.fixedBookmarkCTypeWidth target length := by
  have sizes := platform.bookmarkSize_cases
  unfold Platform.fixedBookmarkCTypeWidth
  split_ifs <;> omega

theorem recordFits_of_checkBookmarkRecord {binding} (inside : slot < layout.size)
    (checked : binding.isBound → machine.checkBookmarkRecord settings layout binding = .ok ())
    (on : settings.bookmarkMode ≠ .off) :
    machine.RecordFits layout slot binding (machine.bookmarkExtent settings binding) := by
  by_cases bound : binding.isBound
  · have checked := checked bound
    apply recordFits_of_recordSpansFit inside
    unfold checkBookmarkRecord at checked
    unfold bookmarkExtent
    cases mode : settings.bookmarkMode with
    | off => exact absurd mode on
    | fixed =>
      simp only [mode] at checked
      split_ifs at checked with _ fits
      exact fits
    | variableLength =>
      simp only [mode] at checked
      split_ifs at checked with _ _ fits
      exact fits
  · exact recordFits_of_unbound bound

theorem storeRowBookmark_within (inside : place.slot < settings.ard.arraySize)
    (record : settings.ard.bookmarkRecord = some binding) (checked : binding.isBound →
      machine.checkBookmarkRecord settings (settings.ard.layout memory) binding = .ok ()) :
    Within machine memory settings result
      (machine.storeRowBookmark (settings.ard.layout memory) settings place binding) := by
  have fits := @recordFits_of_checkBookmarkRecord machine settings (settings.ard.layout memory)
    place.slot binding inside checked
  unfold storeRowBookmark
  unfold bookmarkExtent at fits
  cases mode : settings.bookmarkMode with
  | off => exact within_nil
  | fixed =>
    refine storeBookmark_within inside record (by simp [bookmarkExtent, mode]) ?_ ?_
    · simpa [mode] using fits
    have wide := fixedBookmarkCTypeWidth_ge machine.toPlatform binding.conciseType
      binding.octetLength.toNat
    simp only [size, length_singleton, Bool.false_eq_true, if_false]
    split_ifs with eight
    · simp at eight
      omega
    · omega
  | variableLength =>
    refine storeBookmark_within inside record (by simp [bookmarkExtent, mode]) ?_ ?_
    · simpa [mode] using fits
    · simp [size, bookmarkBytes]

theorem fetchBoundRow_within (inside : place.slot < settings.ard.arraySize)
    (status : bindings.status = settings.arrayStatusPtr)
    (statuses : machine.spanFits settings.arrayStatusPtr settings.ard.arraySize 2)
    (bookmark : ∀ binding, bindings.bookmark = some binding →
      settings.ard.bookmarkRecord = some binding ∧ (binding.isBound →
        machine.checkBookmarkRecord settings (settings.ard.layout memory) binding = .ok ()))
    (columns : ∀ index binding cell,
      (bindings.fields.zip (result.resultRows.getD place.rowIndex []))[index]? =
        some (binding, cell) → bindings.ignored index = false → binding.isBound →
      ∃ info, settings.ard.records[index]? = some binding ∧ result.columnInfo[index]? = some info ∧
        machine.ColumnFits (settings.ard.layout memory) place.slot info.sqlType binding) :
    Within machine memory settings result
      (machine.fetchBoundRow parsers result (settings.ard.layout memory) settings bindings
        place).writes := by
  unfold fetchBoundRow
  refine Within.append (within_andThen ?_ ?_) ?_
  · apply within_flatMap
    intro binding isBinding
    obtain ⟨record, checked⟩ := bookmark binding (mem_toList.mp isBinding)
    exact storeRowBookmark_within inside record checked
  · apply fetchBoundColumns_within inside
    simpa only [Nat.zero_add] using columns
  · rw [status]
    exact within_storeStatus inside statuses

/-! ### A rowset -/

theorem exists_columnInfo
    (rectangular : ∀ row ∈ result.resultRows, row.length = result.columnInfo.length)
    {fields : List BoundResultField} {rowIndex : Nat}
    (isCell : (fields.zip (result.resultRows.getD rowIndex []))[index]? = some (binding, cell)) :
    fields[index]? = some binding ∧ ∃ info, result.columnInfo[index]? = some info := by
  obtain ⟨isField, inRow⟩ := List.getElem?_zip_eq_some.mp isCell
  refine ⟨isField, ?_⟩
  have inside := (List.getElem?_eq_some_iff.mp inRow).1
  by_cases isRow : rowIndex < result.resultRows.length
  · have member : result.resultRows.getD rowIndex [] ∈ result.resultRows := by
      rw [getD_eq_getElem?_getD, List.getElem?_eq_getElem isRow, getD_some]
      exact getElem_mem isRow
    rw [rectangular _ member] at inside
    exact ⟨_, List.getElem?_eq_getElem inside⟩
  · rw [getD_eq_getElem?_getD, List.getElem?_eq_none (not_lt.mp isRow)] at inside
    exact absurd inside (Nat.not_lt_zero _)

theorem columnFits_of_checked (inside : slot < layout.size)
    (bound : binding.isBound) (checked : machine.columnFits layout sqlType binding) :
    machine.ColumnFits layout slot sqlType binding := by
  intro supported
  simp only [columnFits, bound, supported, Bool.not_true, Bool.false_or, Option.any_eq_true]
    at checked
  obtain ⟨extent, isExtent, spans⟩ := checked
  exact ⟨extent, isExtent, recordFits_of_recordSpansFit inside spans⟩

theorem fetchRows_within {overlap : Bool}
    (rectangular : ∀ row ∈ result.resultRows, row.length = result.columnInfo.length)
    (checked : machine.LayoutChecked memory settings result layout)
    (short : rows.length ≤ settings.ard.arraySize) : Within machine memory settings result
      (machine.fetchRows parsers settings result layout overlap cursor rows).writes := by
  have statuses := checked.size ▸ checked.status
  have cleared : Within machine memory settings result
      (machine.storeStatuses settings.arrayStatusPtr layout.size .noRow ++
        machine.storeCount settings.rowsProcessedPtr rows.length) :=
    (within_storeStatuses checked.size.le statuses).append (within_storeCount checked.fetched)
  unfold fetchRows
  dsimp only
  split
  · exact cleared
  split
  · exact cleared.append (within_storeStatuses short statuses)
  rename_i retrieves
  have retrieves : settings.retrieveData := by simpa using retrieves
  refine cleared.append (within_flatMap ?_)
  intro row isRow
  obtain ⟨⟨rowIndex, slot⟩, isPlace, rfl⟩ := mem_map.mp isRow
  have inside : slot < settings.ard.arraySize :=
    (snd_lt_of_mem_zipIdx isPlace).trans_le (by simpa using short)
  have columns := checked.columns retrieves
  have bookmark := checked.bookmark retrieves
  rw [checked.described retrieves] at columns bookmark ⊢
  refine fetchBoundRow_within inside rfl statuses ?_ ?_
  · exact fun binding record => ⟨record, bookmark binding record⟩
  intro index binding cell isCell _ bound
  obtain ⟨record, info, isColumn⟩ := exists_columnInfo rectangular isCell
  refine ⟨info, record, isColumn, columnFits_of_checked inside bound ?_⟩
  exact columns binding info
    (mem_of_getElem? (List.getElem?_zip_eq_some.mpr ⟨record, isColumn⟩))

theorem move_rows_length {staticCursor moved target total size}
    (isMove : machine.move staticCursor cursor target total size = some (moved, rows)) :
    rows.length ≤ size := by
  unfold move at isMove
  split_ifs at isMove with nowhere
  · cases isMove
    exact Nat.zero_le _
  obtain ⟨left, -, isMove⟩ := bind_eq_some_iff.mp isMove
  obtain ⟨currentRow, -, isMove⟩ := bind_eq_some_iff.mp isMove
  cases isMove
  rw [length_range']
  exact min_le_left _ _

theorem fetchImpl_within {orientation : FetchOrientation} {offset : Int}
    (rectangular : ∀ row ∈ result.resultRows, row.length = result.columnInfo.length)
    (fits : result.total ≤ machine.sizeMax) (counted : cursor.currentRow ≤ machine.sizeMax)
    (isLength : machine.IsLength offset) :
    ∃ outcome, machine.fetchImpl parsers memory settings result cursor orientation offset =
        some outcome ∧
      (outcome.Refused cursor ∨ Within machine memory settings result outcome.writes) := by
  unfold fetchImpl
  split
  · exact ⟨_, rfl, .inl (refused_refuse cursor _ _)⟩
  rename_i request admitted
  split
  · exact ⟨_, rfl, .inl (refused_refuse cursor cursor.fetchFailed _)⟩
  rename_i layout passed
  have checked := layoutChecked_of_ok passed
  have named : ∀ row, request = .bookmark row → row < result.total :=
    fun row isBookmark => admitFetch_named admitted isBookmark
  obtain ⟨target, found⟩ := @exists_fetchTarget machine cursor result.total layout.size request
    offset fits counted isLength named settings.staticCursor
  obtain ⟨⟨moved, rows⟩, isMove⟩ := @exists_move machine cursor result.total layout.size fits
    settings.staticCursor target
  have short := move_rows_length isMove
  rw [checked.size] at short
  simp only [fetchRowset, found, isMove, bind_eq_bind, bind_some]
  split
  · exact ⟨_, rfl, .inl (refused_refuse cursor cursor.fetchFailed _)⟩
  · exact ⟨_, rfl, .inr (fetchRows_within rectangular checked short)⟩

/-! ### Bulk operations -/

theorem columnFits_of_bulkColumnFits
    (fetched : machine.columnIgnored memory layout binding slot = false)
    (checked : machine.bulkColumnFits memory layout sqlType binding slot) :
    machine.ColumnFits layout slot sqlType binding := by
  intro supported
  simp only [bulkColumnFits, fetched, supported, Bool.not_true, Bool.false_or, Option.any_eq_true,
    Bool.and_eq_true] at checked
  obtain ⟨extent, isExtent, ⟨data, indicator⟩, octetLength⟩ := checked
  exact ⟨extent, isExtent, slotFits_of_bulkFieldFits data, slotFits_of_bulkFieldFits indicator,
    slotFits_of_bulkFieldFits octetLength⟩

variable (rectangular : ∀ row ∈ result.resultRows, row.length = result.columnInfo.length)

include rectangular

theorem fetchBulkRow_within {input slot : Nat}
    (checked : machine.BulkChecked memory settings result layout)
    (inside : slot < settings.ard.arraySize) : Within machine memory settings result
      (machine.fetchBulkRow parsers memory settings result layout input slot).writes := by
  obtain ⟨rfl, statuses, -, columns⟩ := checked
  unfold fetchBulkRow
  dsimp only
  split
  · exact within_storeStatus inside statuses
  refine fetchBoundRow_within inside rfl statuses ?_ ?_
  · intro binding isBookmark
    cases isBookmark
  intro index binding cell isCell fetched _
  obtain ⟨isField, info, isColumn⟩ := exists_columnInfo rectangular isCell
  have isField : (bulkFields settings result)[index]? = some binding := isField
  have record : settings.ard.records[index]? = some binding := by
    rw [bulkFields, List.getElem?_take] at isField
    split_ifs at isField
    exact isField
  refine ⟨info, record, isColumn, columnFits_of_bulkColumnFits ?_ (columns slot inside binding
    info (mem_of_getElem? (List.getElem?_zip_eq_some.mpr ⟨isField, isColumn⟩)))⟩
  simpa [bulkBindings, isField] using fetched

theorem bulkOperations_within {fetchByBookmark : Bool} :
    (machine.bulkOperations parsers memory settings result cursor fetchByBookmark).Refused cursor ∨
      Within machine memory settings result
        (machine.bulkOperations parsers memory settings result cursor fetchByBookmark).writes := by
  unfold bulkOperations
  split
  · exact .inl (refused_refuse cursor cursor.fetchFailed _)
  split
  · exact .inl (refused_refuse cursor cursor.fetchFailed _)
  rename_i layout passed
  have checked := bulkChecked_of_ok passed
  have size : layout.size = settings.ard.arraySize := by rw [checked.described]; rfl
  refine .inr (((within_storeCount checked.fetched).append ?_).append (within_flatMap ?_))
  · exact within_storeStatuses size.le (size ▸ checked.status)
  intro row isRow
  obtain ⟨slot, isSlot, rfl⟩ := mem_map.mp isRow
  exact fetchBulkRow_within rectangular checked (size ▸ mem_range.mp isSlot)

omit rectangular

/-- A fetch writes only to bound slots. For every descriptor state and every result whose rows have
as many cells as columns, a call fails before it writes or changes the cursor, the rowset or the
progress of `SQLGetData`, or each byte it writes lies in a slot of a bound field. -/
theorem fetch_writes_bound_slots
    (rectangular : ∀ row ∈ result.resultRows, row.length = result.columnInfo.length)
    (fits : result.total ≤ machine.sizeMax) {cursor : Cursor}
    (counted : cursor.currentRow ≤ machine.sizeMax) :
    (∀ orientation offset, machine.IsLength offset →
      ∃ outcome, machine.fetchImpl parsers memory settings result cursor orientation offset =
          some outcome ∧
        (outcome.Refused cursor ∨ Within machine memory settings result outcome.writes)) ∧
    ∀ fetchByBookmark,
      (machine.bulkOperations parsers memory settings result cursor fetchByBookmark).Refused
          cursor ∨
        Within machine memory settings result
          (machine.bulkOperations parsers memory settings result cursor fetchByBookmark).writes :=
  ⟨fun _ _ isLength => fetchImpl_within rectangular fits counted isLength,
    fun _ => bulkOperations_within rectangular⟩

def Sample.texts : ResultSet :=
  { columnInfo := [{ sqlType := .varchar }]
    resultRows := [[some (ascii "rowset")], [some (ascii "slot")]] }

/-- Two rows of sixteen bytes: a buffer of eight and then its length. -/
def Sample.rowWise : FetchSettings :=
  { ard := { arraySize := 2, bindType := 16
             records := [{ conciseType := .char, octetLength := 8, dataPtr := some 4096
                           octetLengthPtr := some 4104 }] }
    rowsProcessedPtr := some 8192 }

theorem fetch_writes_bound_slots_rowWise :
    ∃ outcome, lp64.fetchImpl .refusing .zero Sample.rowWise Sample.texts {} .next 0 =
        some outcome ∧
      Within lp64 .zero Sample.rowWise Sample.texts outcome.writes ∧
      outcome.writes.map (fun write => (write.address, write.output.size)) =
        [(8192, 8), (4096, 7), (4104, 8), (4112, 5), (4120, 8)] := by
  obtain ⟨outcome, fetched, either⟩ :=
    (@fetch_writes_bound_slots lp64 .zero Sample.rowWise Sample.texts .refusing (by decide)
      (by decide) {} (by decide)).1 .next 0 ⟨by decide, by decide⟩
  have evaluated : (lp64.fetchImpl .refusing .zero Sample.rowWise Sample.texts {} .next 0).map
      (fun outcome => (outcome.ret, outcome.writes.map fun write =>
        (write.address, write.output.size))) =
        some (.success, [(8192, 8), (4096, 7), (4104, 8), (4112, 5), (4120, 8)]) := by
    decide +kernel
  simp only [fetched, Option.map_some, Option.some.injEq, Prod.mk.injEq] at evaluated
  refine ⟨outcome, fetched, either.resolve_left ?_, evaluated.2⟩
  intro refused
  cases refused.ret.symm.trans evaluated.1

def Sample.fixedBookmark : FetchSettings :=
  { bookmarkMode := .fixed, activeBookmarkGeneration := 1
    ard := { bookmarkRecord := some { conciseType := .slong, octetLength := 8
                                      dataPtr := some 4096 } } }

/-- A fixed bookmark may be wider than its C type: with a length of eight it is written
as eight bytes although the C type has four. -/
theorem fixedBookmark_exceeds_cType : fixedCTypeSize .slong = some 4 ∧
      (lp64.fetchImpl .refusing .zero Sample.fixedBookmark Sample.texts {} .next 0).map
        (fun outcome => (outcome.ret, outcome.writes.map fun write =>
          (write.address, write.output.size))) =
        some (.success, [(4096, 8)]) := by
  decide +kernel

end Machine
end Odbcpp.Odbc
