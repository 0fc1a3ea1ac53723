import Verixa.Encoding.Bytes

/-!
# CBOR data items

The items of RFC 8949 with definite lengths, as they are written: an initial byte with a major type
and an argument, which stands in the initial byte itself or in one, two, four or eight bytes after
it, and then what the argument counts.

An item is its bytes and nothing else: two items at the beginning of the same bytes are the same
(`toBytes_append_inj`).
-/

namespace Encoding

namespace CborItem

/-- How many bytes after the initial one hold the argument, by the low bits of the initial byte. -/
def width (info : ℕ) : ℕ := if info < 24 then 0 else 2 ^ (info - 24)

/-- The argument of an item: the low bits of the initial byte and the bytes after it. -/
structure Argument where
  info : ℕ
  following : Bytes
  info_lt : info < 28
  length_following : following.length = width info

/-- The number that an argument is. -/
def Argument.value (argument : Argument) : ℕ :=
  if argument.info < 24 then argument.info else bigEndian argument.following

/-- The initial byte and the rest of the argument. -/
def head (majorType : ℕ) (argument : Argument) : Bytes :=
  UInt8.ofNat (majorType * 32 + argument.info) :: argument.following

end CborItem

/-- A data item, by its major type. -/
inductive CborItem where
  | unsigned (argument : CborItem.Argument)
  | negative (argument : CborItem.Argument)
  | bytes (argument : CborItem.Argument) (content : Bytes)
  | text (argument : CborItem.Argument) (content : Bytes)
  | array (argument : CborItem.Argument) (items : List CborItem)
  | map (argument : CborItem.Argument) (entries : List (CborItem × CborItem))
  | tag (argument : CborItem.Argument) (item : CborItem)
  | special (argument : CborItem.Argument)

namespace CborItem

/-- The major type of an item. -/
def majorType : CborItem → ℕ
  | .unsigned _ => 0
  | .negative _ => 1
  | .bytes _ _ => 2
  | .text _ _ => 3
  | .array _ _ => 4
  | .map _ _ => 5
  | .tag _ _ => 6
  | .special _ => 7

/-- The argument of an item. -/
def argument : CborItem → Argument
  | .unsigned argument | .negative argument | .bytes argument _ | .text argument _
  | .array argument _ | .map argument _ | .tag argument _ | .special argument => argument

mutual

/-- An item as it is written. -/
def toBytes : CborItem → Bytes
  | .unsigned argument => head 0 argument
  | .negative argument => head 1 argument
  | .bytes argument content => head 2 argument ++ content
  | .text argument content => head 3 argument ++ content
  | .array argument items => head 4 argument ++ itemsToBytes items
  | .map argument entries => head 5 argument ++ entriesToBytes entries
  | .tag argument item => head 6 argument ++ toBytes item
  | .special argument => head 7 argument

/-- Items one after another. -/
def itemsToBytes : List CborItem → Bytes
  | [] => []
  | item :: items => toBytes item ++ itemsToBytes items

/-- Entries one after another, the key before the value. -/
def entriesToBytes : List (CborItem × CborItem) → Bytes
  | [] => []
  | (key, value) :: entries => toBytes key ++ (toBytes value ++ entriesToBytes entries)

end

mutual

/-- The arguments count what follows them. -/
def Counted : CborItem → Prop
  | .unsigned _ => True
  | .negative _ => True
  | .bytes argument content => argument.value = content.length
  | .text argument content => argument.value = content.length
  | .array argument items => argument.value = items.length ∧ CountedItems items
  | .map argument entries => argument.value = entries.length ∧ CountedEntries entries
  | .tag _ item => Counted item
  | .special _ => True

/-- Items. -/
def CountedItems : List CborItem → Prop
  | [] => True
  | item :: items => Counted item ∧ CountedItems items

/-- Entries. -/
def CountedEntries : List (CborItem × CborItem) → Prop
  | [] => True
  | (key, value) :: entries => Counted key ∧ Counted value ∧ CountedEntries entries

end

mutual

/-- No simple value that fits the initial byte is written in two bytes. -/
def SimpleInPlace : CborItem → Prop
  | .special argument => argument.info = 24 → 32 ≤ argument.value
  | .array _ items => SimpleInPlaceItems items
  | .map _ entries => SimpleInPlaceEntries entries
  | .tag _ item => SimpleInPlace item
  | .unsigned _ | .negative _ | .bytes _ _ | .text _ _ => True

/-- Items. -/
def SimpleInPlaceItems : List CborItem → Prop
  | [] => True
  | item :: items => SimpleInPlace item ∧ SimpleInPlaceItems items

/-- Entries. -/
def SimpleInPlaceEntries : List (CborItem × CborItem) → Prop
  | [] => True
  | (key, value) :: entries =>
    SimpleInPlace key ∧ SimpleInPlace value ∧ SimpleInPlaceEntries entries

end

/-- A well-formed item of definite length. -/
def WellFormed (item : CborItem) : Prop := Counted item ∧ SimpleInPlace item

mutual

/-- How deeply an item is nested, with its tags. -/
def depth : CborItem → ℕ
  | .array _ items => depthItems items + 1
  | .map _ entries => depthEntries entries + 1
  | .tag _ item => depth item + 1
  | .unsigned _ | .negative _ | .bytes _ _ | .text _ _ | .special _ => 0

/-- Items. -/
def depthItems : List CborItem → ℕ
  | [] => 0
  | item :: items => max (depth item) (depthItems items)

/-- Entries. -/
def depthEntries : List (CborItem × CborItem) → ℕ
  | [] => 0
  | (key, value) :: entries => max (max (depth key) (depth value)) (depthEntries entries)

end

/-! ## Items and their bytes -/

/-- An argument is what is written of it. -/
theorem head_append_inj {m m' : ℕ} {a a' : Argument} {rest rest' : Bytes} (hm : m < 8)
    (hm' : m' < 8) (h : head m a ++ rest = head m' a' ++ rest') :
    m = m' ∧ a = a' ∧ rest = rest' := by
  obtain ⟨info, following, hinfo, hlength⟩ := a
  obtain ⟨info', following', hinfo', hlength'⟩ := a'
  obtain ⟨hbyte, htail⟩ := List.cons.inj h
  have hnumber := congrArg UInt8.toNat hbyte
  rw [UInt8.toNat_ofNat', UInt8.toNat_ofNat'] at hnumber
  have hmajor : m = m' := by
    dsimp only at hnumber
    omega
  have hsame : info = info' := by
    dsimp only at hnumber
    omega
  subst hmajor hsame
  obtain ⟨hfollowing, hrest⟩ := List.append_inj htail (hlength.trans hlength'.symm)
  subst hfollowing
  exact ⟨rfl, rfl, hrest⟩

/-- What an item has after its head. -/
def body : CborItem → Bytes
  | .unsigned _ => []
  | .negative _ => []
  | .bytes _ content => content
  | .text _ content => content
  | .array _ items => itemsToBytes items
  | .map _ entries => entriesToBytes entries
  | .tag _ item => toBytes item
  | .special _ => []

theorem toBytes_eq (item : CborItem) :
    toBytes item = head item.majorType item.argument ++ item.body := by
  cases item with
  | unsigned argument => exact (List.append_nil _).symm
  | negative argument => exact (List.append_nil _).symm
  | bytes argument content => rfl
  | text argument content => rfl
  | array argument items => rw [toBytes]; rfl
  | map argument entries => rw [toBytes]; rfl
  | tag argument item => rw [toBytes]; rfl
  | special argument => exact (List.append_nil _).symm

theorem toBytes_ne_nil (item : CborItem) : toBytes item ≠ [] := by
  rw [toBytes_eq]
  exact List.cons_ne_nil _ _

theorem majorType_lt (item : CborItem) : item.majorType < 8 := by
  cases item <;> simp only [majorType] <;> omega

/-- Items at the beginning of the same bytes have the same head. -/
theorem head_eq {a b : CborItem} {rest rest' : Bytes}
    (h : toBytes a ++ rest = toBytes b ++ rest') :
    a.majorType = b.majorType ∧ a.argument = b.argument ∧ a.body ++ rest = b.body ++ rest' := by
  rw [toBytes_eq, toBytes_eq, List.append_assoc, List.append_assoc] at h
  exact head_append_inj (majorType_lt a) (majorType_lt b) h

mutual

/-- Two items at the beginning of the same bytes are the same. -/
theorem toBytes_append_inj : ∀ a b : CborItem, Counted a → Counted b → ∀ {rest rest' : Bytes},
    toBytes a ++ rest = toBytes b ++ rest' → a = b ∧ rest = rest'
  | .unsigned argument, b, _, _, _, _, h => by
    obtain ⟨hmajor, hargument, hrest⟩ := head_eq h
    cases b with
    | unsigned argument' =>
      cases hargument
      exact ⟨rfl, hrest⟩
    | _ => simp [majorType] at hmajor
  | .negative argument, b, _, _, _, _, h => by
    obtain ⟨hmajor, hargument, hrest⟩ := head_eq h
    cases b with
    | negative argument' =>
      cases hargument
      exact ⟨rfl, hrest⟩
    | _ => simp [majorType] at hmajor
  | .bytes argument content, b, ha, hb, _, _, h => by
    obtain ⟨hmajor, hargument, hrest⟩ := head_eq h
    cases b with
    | bytes argument' content' =>
      cases hargument
      obtain ⟨hcontent, hbehind⟩ := List.append_inj hrest (ha.symm.trans hb)
      cases hcontent
      exact ⟨rfl, hbehind⟩
    | _ => simp [majorType] at hmajor
  | .text argument content, b, ha, hb, _, _, h => by
    obtain ⟨hmajor, hargument, hrest⟩ := head_eq h
    cases b with
    | text argument' content' =>
      cases hargument
      obtain ⟨hcontent, hbehind⟩ := List.append_inj hrest (ha.symm.trans hb)
      cases hcontent
      exact ⟨rfl, hbehind⟩
    | _ => simp [majorType] at hmajor
  | .array argument items, b, ha, hb, _, _, h => by
    obtain ⟨hmajor, hargument, hrest⟩ := head_eq h
    cases b with
    | array argument' items' =>
      cases hargument
      obtain ⟨hitems, hbehind⟩ :=
        itemsToBytes_append_inj items items' (ha.1.symm.trans hb.1) ha.2 hb.2 hrest
      cases hitems
      exact ⟨rfl, hbehind⟩
    | _ => simp [majorType] at hmajor
  | .map argument entries, b, ha, hb, _, _, h => by
    obtain ⟨hmajor, hargument, hrest⟩ := head_eq h
    cases b with
    | map argument' entries' =>
      cases hargument
      obtain ⟨hentries, hbehind⟩ :=
        entriesToBytes_append_inj entries entries' (ha.1.symm.trans hb.1) ha.2 hb.2 hrest
      cases hentries
      exact ⟨rfl, hbehind⟩
    | _ => simp [majorType] at hmajor
  | .tag argument item, b, ha, hb, _, _, h => by
    obtain ⟨hmajor, hargument, hrest⟩ := head_eq h
    cases b with
    | tag argument' item' =>
      cases hargument
      obtain ⟨hitem, hbehind⟩ := toBytes_append_inj item item' ha hb hrest
      cases hitem
      exact ⟨rfl, hbehind⟩
    | _ => simp [majorType] at hmajor
  | .special argument, b, _, _, _, _, h => by
    obtain ⟨hmajor, hargument, hrest⟩ := head_eq h
    cases b with
    | special argument' =>
      cases hargument
      exact ⟨rfl, hrest⟩
    | _ => simp [majorType] at hmajor

theorem itemsToBytes_append_inj : ∀ a b : List CborItem, a.length = b.length → CountedItems a →
    CountedItems b → ∀ {rest rest' : Bytes},
      itemsToBytes a ++ rest = itemsToBytes b ++ rest' → a = b ∧ rest = rest'
  | [], [], _, _, _, _, _, h => ⟨rfl, h⟩
  | [], _ :: _, hlength, _, _, _, _, _ => absurd hlength (Nat.succ_ne_zero _).symm
  | _ :: _, [], hlength, _, _, _, _, _ => absurd hlength (Nat.succ_ne_zero _)
  | item :: items, item' :: items', hlength, ha, hb, _, _, h => by
    rw [itemsToBytes, itemsToBytes, List.append_assoc, List.append_assoc] at h
    obtain ⟨hitem, hrest⟩ := toBytes_append_inj item item' ha.1 hb.1 h
    obtain ⟨hitems, hrest⟩ :=
      itemsToBytes_append_inj items items' (Nat.succ.inj hlength) ha.2 hb.2 hrest
    exact ⟨by rw [hitem, hitems], hrest⟩

theorem entriesToBytes_append_inj : ∀ a b : List (CborItem × CborItem), a.length = b.length →
    CountedEntries a → CountedEntries b → ∀ {rest rest' : Bytes},
      entriesToBytes a ++ rest = entriesToBytes b ++ rest' → a = b ∧ rest = rest'
  | [], [], _, _, _, _, _, h => ⟨rfl, h⟩
  | [], _ :: _, hlength, _, _, _, _, _ => absurd hlength (Nat.succ_ne_zero _).symm
  | _ :: _, [], hlength, _, _, _, _, _ => absurd hlength (Nat.succ_ne_zero _)
  | (key, value) :: entries, (key', value') :: entries', hlength, ha, hb, _, _, h => by
    rw [entriesToBytes, entriesToBytes, List.append_assoc, List.append_assoc, List.append_assoc,
      List.append_assoc] at h
    obtain ⟨hkey, hrest⟩ := toBytes_append_inj key key' ha.1 hb.1 h
    obtain ⟨hvalue, hrest⟩ := toBytes_append_inj value value' ha.2.1 hb.2.1 hrest
    obtain ⟨hentries, hrest⟩ :=
      entriesToBytes_append_inj entries entries' (Nat.succ.inj hlength) ha.2.2 hb.2.2 hrest
    exact ⟨by rw [hkey, hvalue, hentries], hrest⟩

end

/-! ## The fewest bytes -/

/-- The argument of at most four bytes that writes a number in the fewest; of a larger number the
high bytes are lost. -/
def fewest (n : ℕ) : Argument :=
  if h : n < 24 then ⟨n, [], by omega, by rw [width, if_pos h, List.length_nil]⟩
  else if n < 256 then ⟨24, toBigEndian 1 n, by decide, length_toBigEndian 1 n⟩
  else if n < 65536 then ⟨25, toBigEndian 2 n, by decide, length_toBigEndian 2 n⟩
  else ⟨26, toBigEndian 4 n, by decide, length_toBigEndian 4 n⟩

theorem value_fewest (n : ℕ) : (fewest n).value = n % 2 ^ 32 := by
  have hlong : ∀ (width : ℕ) (argument : Argument), ¬argument.info < 24 →
      argument.following = toBigEndian width n → n % 256 ^ width = n % 2 ^ 32 →
        argument.value = n % 2 ^ 32 := by
    intro width argument hinfo hfollowing hmod
    rw [Argument.value, if_neg hinfo, hfollowing, bigEndian_toBigEndian, hmod]
  unfold fewest
  split
  · rename_i hsmall
    rw [Argument.value, if_pos hsmall, Nat.mod_eq_of_lt (by omega)]
  · split
    · exact hlong 1 _ (by norm_num) rfl (by omega)
    · split
      · exact hlong 2 _ (by norm_num) rfl (by omega)
      · exact hlong 4 _ (by norm_num) rfl rfl

/-- An argument of more bytes holds larger numbers. -/
theorem Argument.value_lt (argument : Argument) :
    argument.info < 24 ∧ argument.value < 24 ∨
      argument.info = 24 ∧ argument.following.length = 1 ∧ argument.value < 256 ∨
      argument.info = 25 ∧ argument.following.length = 2 ∧ argument.value < 65536 ∨
      26 ≤ argument.info ∧ 4 ≤ argument.following.length := by
  obtain ⟨info, following, hinfo, hlength⟩ := argument
  have hbound := bigEndian_lt following
  rw [width] at hlength
  simp only [Argument.value]
  by_cases hsmall : info < 24
  · rw [if_pos hsmall]
    exact .inl ⟨hsmall, hsmall⟩
  · rw [if_neg hsmall] at hlength ⊢
    rw [hlength] at hbound ⊢
    have hcases : info = 24 ∨ info = 25 ∨ info = 26 ∨ info = 27 := by omega
    rcases hcases with rfl | rfl | rfl | rfl
    · exact .inr (.inl ⟨rfl, rfl, hbound⟩)
    · exact .inr (.inr (.inl ⟨rfl, rfl, hbound⟩))
    · exact .inr (.inr (.inr ⟨le_rfl, le_rfl⟩))
    · exact .inr (.inr (.inr ⟨by decide, by decide⟩))

/-- No argument for a number has fewer bytes. -/
theorem length_fewest_le {n : ℕ} {argument : Argument} (h : argument.value = n) :
    (fewest n).following.length ≤ argument.following.length := by
  have hvalue := argument.value_lt
  rw [h] at hvalue
  unfold fewest
  split
  · exact Nat.zero_le _
  · split
    · rw [length_toBigEndian]
      omega
    · split
      · rw [length_toBigEndian]
        omega
      · rw [length_toBigEndian]
        omega

end CborItem

end Encoding
