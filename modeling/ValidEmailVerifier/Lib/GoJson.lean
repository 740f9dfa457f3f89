/-
# `GoJson` — `encoding/json` on typed values

`Unmarshal` into a variable and `Marshal` of its value, one codec for each kind of type.
A codec decodes into what the variable holds: `null` leaves a struct, a number and a
string alone and empties a list or a map, a struct takes the fields of an object one after
the other, by their name up to case, and an unknown field is passed over.  A value is decoded
when it fits the type, whatever the variable holds (`Codec.isSome_decode`), and what is
encoded is decoded again (`Codec.decode_encode`).
-/
import ValidEmailVerifier.Lib.Json
import Mathlib.Data.List.Lex
import Mathlib.Data.List.Nodup
import Std.Data.ExtTreeMap

/-- `float64` as `strconv` and `fmt` know it: a literal out of range is not parsed, a value
is formatted with as many digits as it takes to parse it again, and is printed with a sign
or a digit in front. -/
class Floats (F : Type) where
  zero : F
  parse : Number → Option F
  format : F → Number
  positive : F → Bool
  /-- The verb `%v`. -/
  print : F → List Char
  parse_format : ∀ x, parse (format x) = some x
  print_head : ∀ x, ∃ c rest, print x = c :: rest ∧ (c = '-' ∨ c.isDigit = true)

/-- Decimals without a limit: each literal is its own value. -/
instance : Floats Number where
  zero := ⟨false, 0, none⟩
  parse := some
  format := id
  positive n := !n.negative && n.digits != 0
  print n := (if n.negative then ['-'] else []) ++ Nat.toDigits 10 n.digits ++
    (match n.exponent with
    | some e => 'e' :: (toString e).toList
    | none => [])
  parse_format _ := rfl
  print_head n := by
    obtain ⟨d, rest, hdigits⟩ := List.exists_cons_of_ne_nil (@Nat.toDigits_ne_nil n.digits 10)
    have hd : d.isDigit = true := by
      refine Nat.isDigit_of_mem_toDigits (b := 10) (n := n.digits) (by decide) (by decide) ?_
      rw [hdigits]
      exact .head _
    rw [hdigits]
    cases n.negative with
    | true => exact ⟨'-', _, rfl, .inl rfl⟩
    | false => exact ⟨d, _, rfl, .inr hd⟩

namespace GoJson

/-- A map of strings. -/
abbrev GoMap (β : Type) := Std.ExtTreeMap (List Char) β compare

/-- How the values of a type are decoded and encoded. -/
structure Codec (β : Type) where
  zero : β
  /-- `Unmarshal` into a variable that holds a value. -/
  decode : β → Json → Option β
  /-- `Marshal`. -/
  encode : β → Json
  /-- The value has the shape of the type. -/
  Fits : Json → Prop
  isSome_decode : ∀ b j, (decode b j).isSome = true ↔ Fits j
  decode_encode : ∀ b, decode zero (encode b) = some b

namespace Codec

/-! ## Basic types -/

def bool : Codec Bool where
  zero := false
  decode b
    | .null => some b
    | .bool v => some v
    | _ => none
  encode := .bool
  Fits
    | .null | .bool _ => True
    | _ => False
  isSome_decode b j := by cases j <;> simp
  decode_encode _ := rfl

def string : Codec (List Char) where
  zero := []
  decode b
    | .null => some b
    | .str s => some s
    | _ => none
  encode := .str
  Fits
    | .null | .str _ => True
    | _ => False
  isSome_decode b j := by cases j <;> simp
  decode_encode _ := rfl

/-- `strconv.ParseInt` of a literal of 64 bits. -/
def parseInt (n : Number) : Option Int64 :=
  n.toInt?.bind fun i =>
    if Int64.minValue.toInt ≤ i ∧ i ≤ Int64.maxValue.toInt then some (Int64.ofInt i) else none

theorem isSome_parseInt {n : Number} : (parseInt n).isSome = true ↔
    ∃ i, n.toInt? = some i ∧ Int64.minValue.toInt ≤ i ∧ i ≤ Int64.maxValue.toInt := by
  rw [parseInt]
  cases n.toInt? with
  | none => simp
  | some i =>
    rw [Option.bind_some]
    split
    · next h => exact ⟨fun _ => ⟨i, rfl, h⟩, fun _ => rfl⟩
    · next h =>
      constructor
      · exact nofun
      · rintro ⟨w, hw, hbounds⟩
        rw [← Option.some.inj hw] at hbounds
        exact absurd hbounds h

theorem parseInt_ofInt (i : Int64) : parseInt (Number.ofInt i.toInt) = some i := by
  rw [parseInt, Number.toInt?_ofInt, Option.bind_some,
    if_pos ⟨Int64.minValue_le_toInt i, Int64.toInt_le i⟩, Int64.ofInt_toInt]

def int : Codec Int64 where
  zero := 0
  decode b
    | .null => some b
    | .num n => parseInt n
    | _ => none
  encode i := .num (Number.ofInt i.toInt)
  Fits
    | .null => True
    | .num n => ∃ i, n.toInt? = some i ∧ Int64.minValue.toInt ≤ i ∧ i ≤ Int64.maxValue.toInt
    | _ => False
  isSome_decode b j := by
    cases j with
    | num n => exact isSome_parseInt
    | _ => simp
  decode_encode := parseInt_ofInt

def float {F : Type} [Floats F] : Codec F where
  zero := Floats.zero
  decode b
    | .null => some b
    | .num n => Floats.parse n
    | _ => none
  encode x := .num (Floats.format x)
  Fits
    | .null => True
    | .num n => (Floats.parse (F := F) n).isSome = true
    | _ => False
  isSome_decode b j := by cases j <;> simp
  decode_encode := Floats.parse_format

/-! ## Lists and maps -/

section

variable {β : Type} (c : Codec β)

def decodeElems : List Json → Option (List β)
  | [] => some []
  | j :: rest => (c.decode c.zero j).bind fun b => (decodeElems rest).map (b :: ·)

theorem decodeElems_encode (bs : List β) : c.decodeElems (bs.map c.encode) = some bs := by
  induction bs with
  | nil => rfl
  | cons b bs ih => rw [List.map_cons, decodeElems, c.decode_encode, ih]; rfl

theorem isSome_decodeElems {elems : List Json} :
    (c.decodeElems elems).isSome = true ↔ ∀ j ∈ elems, c.Fits j := by
  induction elems with
  | nil => simp [decodeElems]
  | cons j rest ih =>
    rw [decodeElems, List.forall_mem_cons, ← c.isSome_decode c.zero j]
    cases c.decode c.zero j with
    | none => simp
    | some b =>
      rw [Option.bind_some, Option.isSome_map, ih]
      simp

def list : Codec (List β) where
  zero := []
  decode _
    | .null => some []
    | .arr elems => c.decodeElems elems
    | _ => none
  encode bs := .arr (bs.map c.encode)
  Fits
    | .null => True
    | .arr elems => ∀ j ∈ elems, c.Fits j
    | _ => False
  isSome_decode b j := by
    cases j with
    | arr elems => exact c.isSome_decodeElems
    | _ => simp
  decode_encode := c.decodeElems_encode

/-- Each entry is decoded afresh, and takes the place of one with its key. -/
def decodeEntries : List (List Char × Json) → GoMap β → Option (GoMap β)
  | [], m => some m
  | (k, j) :: rest, m => (c.decode c.zero j).bind fun b => decodeEntries rest (m.insert k b)

theorem isSome_decodeEntries {fields : List (List Char × Json)} {m : GoMap β} :
    (c.decodeEntries fields m).isSome = true ↔ ∀ e ∈ fields, c.Fits e.2 := by
  induction fields generalizing m with
  | nil => simp [decodeEntries]
  | cons field rest ih =>
    obtain ⟨k, j⟩ := field
    rw [decodeEntries, List.forall_mem_cons, ← c.isSome_decode c.zero j]
    cases c.decode c.zero j with
    | none => simp
    | some b =>
      rw [Option.bind_some, ih]
      simp

theorem decodeEntries_encode (entries : List (List Char × β)) (m : GoMap β) :
    c.decodeEntries (entries.map fun e => (e.1, c.encode e.2)) m =
      some (entries.foldl (fun m e => m.insert e.1 e.2) m) := by
  induction entries generalizing m with
  | nil => rfl
  | cons e entries ih =>
    rw [List.map_cons, decodeEntries, c.decode_encode, Option.bind_some, ih, List.foldl_cons]

theorem insert_toList (m : GoMap β) :
    m.toList.foldl (fun m e => m.insert e.1 e.2) (∅ : GoMap β) = m := by
  have hlist : m.toList.foldl (fun m e => m.insert e.1 e.2) (∅ : GoMap β) =
      Std.ExtTreeMap.ofList m.toList compare := by
    rw [Std.ExtTreeMap.ofList_eq_insertMany_empty, Std.ExtTreeMap.insertMany_list_eq_foldl]
  rw [hlist]
  refine Std.ExtTreeMap.ext_getElem? fun k => ?_
  cases hk : m[k]? with
  | some v =>
    exact Std.ExtTreeMap.getElem?_ofList_of_mem Std.ReflCmp.compare_self
      Std.ExtTreeMap.distinct_keys_toList (Std.ExtTreeMap.mem_toList_iff_getElem?_eq_some.mpr hk)
  | none =>
    refine Std.ExtTreeMap.getElem?_ofList_of_contains_eq_false ?_
    have hnot : k ∉ m := by rw [Std.ExtTreeMap.mem_iff_isSome_getElem?, hk]; exact nofun
    rw [Std.ExtTreeMap.map_fst_toList_eq_keys, ← Bool.not_eq_true, List.contains_iff_mem,
      Std.ExtTreeMap.mem_keys]
    exact hnot

def map : Codec (GoMap β) where
  zero := ∅
  decode m
    | .null => some ∅
    | .obj fields => c.decodeEntries fields m
    | _ => none
  encode m := .obj (m.toList.map fun e => (e.1, c.encode e.2))
  Fits
    | .null => True
    | .obj fields => ∀ e ∈ fields, c.Fits e.2
    | _ => False
  isSome_decode b j := by
    cases j with
    | obj fields => exact c.isSome_decodeEntries
    | _ => simp
  decode_encode m := by
    show c.decodeEntries (m.toList.map fun e => (e.1, c.encode e.2)) ∅ = some m
    rw [c.decodeEntries_encode, insert_toList]

end

end Codec

/-! ## Structs -/

/-- A field of a struct. -/
structure Field (σ : Type) where
  name : List Char
  /-- The struct with a value decoded into the field. -/
  put : σ → Json → Option σ
  /-- The second struct with the field of the first. -/
  copy : σ → σ → σ
  /-- What is written of the field, if it is written. -/
  shown : σ → Option Json
  /-- The field holds its zero value. -/
  Fresh : σ → Prop
  Fits : Json → Prop
  isSome_put : ∀ s j, (put s j).isSome = true ↔ Fits j
  put_shown : ∀ b s j, Fresh s → shown b = some j → put s j = some (copy b s)
  copy_of_omitted : ∀ b s, Fresh s → shown b = none → copy b s = s

namespace Field

variable {σ β : Type}

/-- A field that is always written. -/
def always (name : List Char) (c : Codec β) (get : σ → β) (set : β → σ → σ) : Field σ where
  name := name
  put s j := (c.decode (get s) j).map fun v => set v s
  copy b s := set (get b) s
  shown b := some (c.encode (get b))
  Fresh s := get s = c.zero
  Fits := c.Fits
  isSome_put s j := by
    rw [Option.isSome_map]
    exact c.isSome_decode _ j
  put_shown b s j hfresh hshown := by
    rw [← Option.some.inj hshown, hfresh, c.decode_encode, Option.map_some]
  copy_of_omitted b s _ hshown := nomatch hshown

/-- A field with `omitempty`. -/
def omitempty [DecidableEq β] (name : List Char) (c : Codec β) (get : σ → β) (set : β → σ → σ)
    (hset : ∀ s, set (get s) s = s) : Field σ where
  name := name
  put s j := (c.decode (get s) j).map fun v => set v s
  copy b s := set (get b) s
  shown b := if get b = c.zero then none else some (c.encode (get b))
  Fresh s := get s = c.zero
  Fits := c.Fits
  isSome_put s j := by
    rw [Option.isSome_map]
    exact c.isSome_decode _ j
  put_shown b s j hfresh hshown := by
    split at hshown
    · exact nomatch hshown
    · rw [← Option.some.inj hshown, hfresh, c.decode_encode, Option.map_some]
  copy_of_omitted b s hfresh hshown := by
    split at hshown
    · next hzero => rw [hzero, ← hfresh, hset]
    · exact nomatch hshown

theorem copy_always {name : List Char} {c : Codec β} {get : σ → β} {set : β → σ → σ} {b s : σ} :
    (always name c get set).copy b s = set (get b) s := rfl

theorem copy_omitempty [DecidableEq β] {name : List Char} {c : Codec β} {get : σ → β}
    {set : β → σ → σ} {hset : ∀ s, set (get s) s = s} {b s : σ} :
    (omitempty name c get set hset).copy b s = set (get b) s := rfl

end Field

/-- The smallest character that is the same up to case, as far as it is in ASCII: the
long s and the sign of the kelvin are folded to letters. -/
def foldRune (c : Char) : Char :=
  if c.val = 0x17F then 'S' else if c.val = 0x212A then 'K' else c.toUpper

/-- `foldName`. -/
def foldName (name : List Char) : List Char := name.map foldRune

/-- The fields of a struct, no two of them of one name up to case. -/
structure Layout (σ : Type) where
  zero : σ
  fields : List (Field σ)
  nodup : (fields.map fun f => foldName f.name).Nodup
  fresh : ∀ f ∈ fields, f.Fresh zero
  apart : fields.Pairwise fun f g => ∀ b s, g.Fresh s → g.Fresh (f.copy b s)
  total : ∀ b, fields.foldl (fun s f => f.copy b s) zero = b

namespace Layout

variable {σ : Type} (layout : Layout σ)

/-- The field a key of an object is for. -/
def field (key : List Char) : Option (Field σ) :=
  layout.fields.find? fun f => foldName f.name = foldName key

/-- The fields of an object, one after the other. -/
def decodeFields : List (List Char × Json) → σ → Option σ
  | [], s => some s
  | (key, j) :: rest, s =>
      match layout.field key with
      | some f => (f.put s j).bind (decodeFields rest)
      | none => decodeFields rest s

/-- What is written of a struct. -/
def shown (fields : List (Field σ)) (b : σ) : List (List Char × Json) :=
  fields.filterMap fun f => (f.shown b).map fun j => (f.name, j)

theorem mem_of_field {key : List Char} {f : Field σ} (h : layout.field key = some f) :
    f ∈ layout.fields ∧ foldName f.name = foldName key :=
  ⟨List.mem_of_find?_eq_some h, by simpa using List.find?_some h⟩

theorem field_of_mem {key : List Char} {f : Field σ} (h : f ∈ layout.fields)
    (hname : foldName f.name = foldName key) : layout.field key = some f := by
  obtain ⟨g, hg⟩ : ∃ g, layout.field key = some g := by
    rw [← Option.isSome_iff_exists, field, List.find?_isSome]
    exact ⟨f, h, by simpa using hname⟩
  obtain ⟨hmem, hgname⟩ := layout.mem_of_field hg
  have heq : g = f := List.inj_on_of_nodup_map layout.nodup hmem h (hgname.trans hname.symm)
  rw [hg, heq]

theorem isSome_decodeFields {object : List (List Char × Json)} {s : σ} :
    (layout.decodeFields object s).isSome = true ↔
      ∀ e ∈ object, ∀ f ∈ layout.fields, foldName f.name = foldName e.1 → f.Fits e.2 := by
  induction object generalizing s with
  | nil => simp [decodeFields]
  | cons entry rest ih =>
    obtain ⟨key, j⟩ := entry
    rw [decodeFields, List.forall_mem_cons]
    cases hfield : layout.field key with
    | none =>
      have hnone : ∀ f ∈ layout.fields, foldName f.name = foldName key → f.Fits j := by
        intro f hf hname
        rw [layout.field_of_mem hf hname] at hfield
        exact nomatch hfield
      rw [ih]
      exact ⟨fun h => ⟨hnone, h⟩, fun h => h.2⟩
    | some f =>
      obtain ⟨hf, hname⟩ := layout.mem_of_field hfield
      have honly : (∀ g ∈ layout.fields, foldName g.name = foldName key → g.Fits j) ↔
          f.Fits j := by
        constructor
        · exact fun h => h f hf hname
        · intro h g hg hgname
          have heq : some g = some f := (layout.field_of_mem hg hgname).symm.trans hfield
          exact Option.some.inj heq ▸ h
      rw [honly, ← f.isSome_put s j]
      show ((f.put s j).bind _).isSome = true ↔ _
      cases f.put s j with
      | none => simp
      | some t =>
        rw [Option.bind_some, ih]
        simp

/-- The fields that are left, decoded behind those before them. -/
theorem decodeFields_shown {b s : σ} {rest : List (Field σ)} (hmem : ∀ f ∈ rest, f ∈ layout.fields)
    (hfresh : ∀ f ∈ rest, f.Fresh s)
    (hapart : rest.Pairwise fun f g => ∀ b s, g.Fresh s → g.Fresh (f.copy b s)) :
    layout.decodeFields (shown rest b) s = some (rest.foldl (fun s f => f.copy b s) s) := by
  induction rest generalizing s with
  | nil => rfl
  | cons f rest ih =>
    obtain ⟨hf, hrest⟩ := List.pairwise_cons.mp hapart
    have hnext := @ih (f.copy b s) (fun g hg => hmem g (.tail _ hg))
      (fun g hg => hf g hg b s (hfresh g (.tail _ hg))) hrest
    rw [List.foldl_cons, ← hnext]
    cases hshown : f.shown b with
    | none =>
      have hskip : shown (f :: rest) b = shown rest b :=
        List.filterMap_cons_none (by rw [hshown]; rfl)
      rw [hskip, f.copy_of_omitted b s (hfresh f (.head _)) hshown]
    | some j =>
      have hcons : shown (f :: rest) b = (f.name, j) :: shown rest b :=
        List.filterMap_cons_some (by rw [hshown]; rfl)
      rw [hcons, decodeFields, layout.field_of_mem (hmem f (.head _)) rfl]
      show (f.put s j).bind _ = _
      rw [f.put_shown b s j (hfresh f (.head _)) hshown]
      rfl

/-- The codec of a struct. -/
def codec : Codec σ where
  zero := layout.zero
  decode s
    | .null => some s
    | .obj object => layout.decodeFields object s
    | _ => none
  encode b := .obj (shown layout.fields b)
  Fits
    | .null => True
    | .obj object =>
        ∀ e ∈ object, ∀ f ∈ layout.fields, foldName f.name = foldName e.1 → f.Fits e.2
    | _ => False
  isSome_decode b j := by
    cases j with
    | obj object => exact layout.isSome_decodeFields
    | _ => simp
  decode_encode b := by
    show layout.decodeFields (shown layout.fields b) layout.zero = some b
    rw [layout.decodeFields_shown (fun _ hf => hf) layout.fresh layout.apart, layout.total]

end Layout

/-! ## What a field holds -/

/-- The values of the keys that are a name up to case, in their order. -/
def values (name : List Char) (object : List (List Char × Json)) : List Json :=
  object.filterMap fun e => if foldName e.1 = foldName name then some e.2 else none

namespace Codec

/-- One value decoded after the other. -/
def decodeAll {β : Type} (c : Codec β) : List Json → β → Option β
  | [], b => some b
  | j :: rest, b => (c.decode b j).bind (c.decodeAll rest)

def boolOf : Json → Option Bool
  | .bool b => some b
  | _ => none

/-- The last of the values that says something. -/
def lastBool : List Json → Option Bool
  | [] => none
  | j :: rest => (lastBool rest).or (boolOf j)

theorem decodeAll_bool {js : List Json} {b b' : Bool} (h : bool.decodeAll js b = some b') :
    b' = (lastBool js).getD b := by
  induction js generalizing b with
  | nil => exact (Option.some.inj h).symm
  | cons j rest ih =>
    obtain ⟨v, hv, hrest⟩ := Option.bind_eq_some_iff.mp h
    rw [ih hrest, lastBool]
    cases j with
    | null =>
      rw [← Option.some.inj hv, boolOf, Option.or_none]
      exact nofun
    | bool w =>
      rw [← Option.some.inj hv, boolOf]
      cases lastBool rest <;> rfl
    | _ => exact nomatch hv

/-- Among values that say something there is a last one. -/
theorem lastBool_eq_none {js : List Json} (h : lastBool js = none) : ∀ j ∈ js, boolOf j = none := by
  induction js with
  | nil => exact nofun
  | cons j rest ih =>
    obtain ⟨hrest, hj⟩ := Option.or_eq_none_iff.mp h
    exact List.forall_mem_cons.mpr ⟨hj, ih hrest⟩

theorem lastBool_of_getLast? {js : List Json} {b : Bool} (h : js.getLast? = some (.bool b)) :
    lastBool js = some b := by
  induction js with
  | nil => exact nomatch h
  | cons j rest ih =>
    cases rest with
    | nil =>
      rw [List.getLast?_singleton] at h
      rw [Option.some.inj h]
      rfl
    | cons j' rest =>
      rw [List.getLast?_cons_cons] at h
      rw [lastBool, ih h, Option.some_or]

/-- The elements of the last of the values. -/
def lastElems (js : List Json) : List Json :=
  match js.getLast? with
  | some (.arr elems) => elems
  | _ => []

theorem decodeAll_list {β : Type} {c : Codec β} {js : List Json} {bs : List β}
    (h : c.list.decodeAll js [] = some bs) : c.decodeElems (lastElems js) = some bs := by
  have hlast : ∀ (js : List Json) (j : Json) (b bs : List β),
      c.list.decodeAll (js ++ [j]) b = some bs → c.list.decode [] j = some bs := by
    intro js
    induction js with
    | nil =>
      intro j b bs h
      obtain ⟨v, hv, hnil⟩ := Option.bind_eq_some_iff.mp h
      rw [← Option.some.inj hnil]
      cases j <;> exact hv
    | cons i js ih =>
      intro j b bs h
      obtain ⟨v, -, hrest⟩ := Option.bind_eq_some_iff.mp h
      exact ih j v bs hrest
  rcases List.eq_nil_or_concat js with rfl | ⟨front, j, rfl⟩
  · exact h
  · rw [List.concat_eq_append] at *
    rw [lastElems, List.getLast?_concat]
    have hj := hlast front j [] bs h
    cases j <;> first | exact hj | exact nomatch hj

/-- The last entry of a key in objects that are read one after the other. -/
def held (k : List Char) : List Json → Option Json → Option Json
  | [], found => found
  | .null :: rest, _ => held k rest none
  | .obj fields :: rest, found => held k rest ((Json.last k fields).or found)
  | _ :: rest, found => held k rest found

/-- What the last of the objects has under a key is held. -/
theorem held_of_getLast? {k : List Char} {js : List Json} {found : Option Json}
    {fields : List (List Char × Json)} {j : Json} (h : js.getLast? = some (.obj fields))
    (hj : Json.last k fields = some j) : held k js found = some j := by
  induction js generalizing found with
  | nil => exact nomatch h
  | cons i rest ih =>
    cases rest with
    | nil =>
      rw [List.getLast?_singleton] at h
      rw [Option.some.inj h, held, hj]
      rfl
    | cons i' rest =>
      rw [List.getLast?_cons_cons] at h
      cases i <;> exact ih h

theorem getElem?_decodeEntries {β : Type} {c : Codec β} {fields : List (List Char × Json)}
    {m m' : GoMap β} {k : List Char} (h : c.decodeEntries fields m = some m') :
    m'[k]? = match Json.last k fields with
      | some j => c.decode c.zero j
      | none => m[k]? := by
  induction fields generalizing m with
  | nil => rw [← Option.some.inj h]; rfl
  | cons field rest ih =>
    obtain ⟨key, j⟩ := field
    obtain ⟨b, hb, hrest⟩ := Option.bind_eq_some_iff.mp h
    rw [ih hrest, Json.last]
    cases Json.last k rest with
    | some i => rfl
    | none =>
      rw [Option.none_or, Std.ExtTreeMap.getElem?_insert]
      by_cases heq : key = k
      · rw [if_pos heq, heq, if_pos Std.ReflCmp.compare_self]
        exact hb.symm
      · have hne : compare key k ≠ .eq := fun h => heq (Std.LawfulEqCmp.eq_of_compare h)
        rw [if_neg heq, if_neg hne]

/-- What is held fits, when the objects were decoded. -/
theorem fits_held {β : Type} {c : Codec β} {js : List Json} {m m' : GoMap β} {k : List Char}
    {found : Option Json} (hfound : ∀ j, found = some j → c.Fits j)
    (h : c.map.decodeAll js m = some m') {j : Json} (hj : held k js found = some j) :
    c.Fits j := by
  induction js generalizing m found with
  | nil => exact hfound j hj
  | cons i rest ih =>
    obtain ⟨v, hv, hrest⟩ := Option.bind_eq_some_iff.mp h
    cases i with
    | null =>
      have hnone : ∀ j, (none : Option Json) = some j → c.Fits j := nofun
      exact ih hnone hrest hj
    | obj fields =>
      refine ih (fun w hw => ?_) hrest hj
      cases hlast : Json.last k fields with
      | some u =>
        rw [hlast, Option.some_or] at hw
        have hfits := (c.map.isSome_decode m (.obj fields)).mp (by rw [hv]; rfl)
        exact Option.some.inj hw ▸ hfits _ (Json.mem_of_last hlast)
      | none =>
        rw [hlast, Option.none_or] at hw
        exact hfound w hw
    | _ => exact nomatch hv

theorem decodeAll_map {β : Type} {c : Codec β} {js : List Json} {m m' : GoMap β}
    {k : List Char} {found : Option Json} (hfound : m[k]? = found.bind (c.decode c.zero))
    (h : c.map.decodeAll js m = some m') :
    m'[k]? = (held k js found).bind (c.decode c.zero) := by
  induction js generalizing m found with
  | nil => rw [← Option.some.inj h]; exact hfound
  | cons j rest ih =>
    obtain ⟨v, hv, hrest⟩ := Option.bind_eq_some_iff.mp h
    cases j with
    | null =>
      have hempty : v[k]? = (none : Option Json).bind (c.decode c.zero) := by
        rw [← Option.some.inj hv]
        exact Std.ExtTreeMap.getElem?_empty
      exact ih hempty hrest
    | obj fields =>
      refine ih ?_ hrest
      rw [getElem?_decodeEntries hv]
      cases Json.last k fields with
      | some j => rfl
      | none => exact hfound
    | _ => exact nomatch hv

end Codec

/-- A field holds what the values of its name leave there, one after the other. -/
theorem Layout.get_decodeFields {σ β : Type} (layout : Layout σ) {get : σ → β} {c : Codec β}
    {name : List Char} {object : List (List Char × Json)} {s t : σ}
    (hown : ∀ f ∈ layout.fields, foldName f.name = foldName name →
      ∀ s j t, f.put s j = some t → c.decode (get s) j = some (get t))
    (hother : ∀ f ∈ layout.fields, foldName f.name ≠ foldName name →
      ∀ s j t, f.put s j = some t → get t = get s)
    (hname : ∃ f ∈ layout.fields, foldName f.name = foldName name)
    (h : layout.decodeFields object s = some t) :
    c.decodeAll (values name object) (get s) = some (get t) := by
  induction object generalizing s with
  | nil => rw [← Option.some.inj h]; rfl
  | cons e rest ih =>
    obtain ⟨key, j⟩ := e
    rw [Layout.decodeFields] at h
    by_cases hkey : foldName key = foldName name
    · obtain ⟨f, hf, hfname⟩ := hname
      rw [layout.field_of_mem hf (hfname.trans hkey.symm)] at h
      obtain ⟨u, hu, hrest⟩ := Option.bind_eq_some_iff.mp h
      have hcons : values name ((key, j) :: rest) = j :: values name rest :=
        List.filterMap_cons_some (if_pos hkey)
      rw [hcons, Codec.decodeAll, hown f hf hfname s j u hu]
      exact ih hrest
    · have hskip : values name ((key, j) :: rest) = values name rest :=
        List.filterMap_cons_none (if_neg hkey)
      rw [hskip]
      cases hfield : layout.field key with
      | none =>
        rw [hfield] at h
        exact ih h
      | some f =>
        rw [hfield] at h
        obtain ⟨hf, hfname⟩ := layout.mem_of_field hfield
        obtain ⟨u, hu, hrest⟩ := Option.bind_eq_some_iff.mp h
        have hsame := hother f hf (fun heq => hkey (hfname ▸ heq)) s j u hu
        rw [← hsame]
        exact ih hrest

/-- No key differs from the name in case only. -/
def NoVariant (name : List Char) (object : List (List Char × Json)) : Prop :=
  ∀ e ∈ object, foldName e.1 = foldName name → e.1 = name

instance {name : List Char} {object : List (List Char × Json)} :
    Decidable (NoVariant name object) :=
  inferInstanceAs (Decidable (∀ e ∈ object, _ → _))

/-- Without variants the last value is that of the last field of the name. -/
theorem getLast?_values {name : List Char} {object : List (List Char × Json)}
    (h : NoVariant name object) : (values name object).getLast? = Json.last name object := by
  induction object with
  | nil => rfl
  | cons e rest ih =>
    have hrest : NoVariant name rest := fun f hf => h f (.tail _ hf)
    rw [Json.last, ← ih hrest]
    by_cases hname : foldName e.1 = foldName name
    · have hcons : values name (e :: rest) = e.2 :: values name rest :=
        List.filterMap_cons_some (if_pos hname)
      rw [hcons, if_pos (h e (.head _) hname), List.getLast?_cons]
      cases (values name rest).getLast? <;> rfl
    · have hskip : values name (e :: rest) = values name rest :=
        List.filterMap_cons_none (if_neg hname)
      have hne : e.1 ≠ name := fun heq => hname (heq ▸ rfl)
      rw [hskip, if_neg hne, Option.or_none]

/-- With each key once there is at most that one value. -/
theorem values_of_nodup {name : List Char} {object : List (List Char × Json)}
    (hnodup : (object.map Prod.fst).Nodup) (h : NoVariant name object) :
    values name object = (Json.last name object).toList := by
  induction object with
  | nil => rfl
  | cons e rest ih =>
    obtain ⟨hnot, hrest⟩ := List.nodup_cons.mp hnodup
    have hvalues := ih hrest fun f hf => h f (.tail _ hf)
    rw [Json.last]
    by_cases hname : e.1 = name
    · have hlast : Json.last name rest = none := Json.last_eq_none_iff.mpr (hname ▸ hnot)
      have hcons : values name (e :: rest) = e.2 :: values name rest :=
        List.filterMap_cons_some (if_pos (congrArg foldName hname))
      rw [hcons, hvalues, hlast, if_pos hname]
      rfl
    · have hfold : foldName e.1 ≠ foldName name := fun heq => hname (h e (.head _) heq)
      have hskip : values name (e :: rest) = values name rest :=
        List.filterMap_cons_none (if_neg hfold)
      rw [hskip, hvalues, if_neg hname, Option.or_none]

/-! ## Values of any type -/

section

variable (F : Type) [Floats F]

/-- Texts with a blank between them. -/
def joinBlank : List (List Char) → List Char
  | [] => []
  | [s] => s
  | s :: rest => s ++ ' ' :: joinBlank rest

mutual

/-- Every number is in the range of `float64`. -/
def inRange : Json → Bool
  | .num n => (Floats.parse (F := F) n).isSome
  | .arr elems => inRangeElems elems
  | .obj fields => inRangeFields fields
  | _ => true

def inRangeElems : List Json → Bool
  | [] => true
  | j :: rest => inRange j && inRangeElems rest

def inRangeFields : List (List Char × Json) → Bool
  | [] => true
  | (_, j) :: rest => inRange j && inRangeFields rest

end

mutual

/-- What the verb `%v` prints of a decoded value; a map is printed in the order of its
keys. -/
def sprint : Json → List Char
  | .null => "<nil>".toList
  | .bool b => if b then "true".toList else "false".toList
  | .num n => ((Floats.parse (F := F) n).map Floats.print).getD []
  | .str s => s
  | .arr elems => '[' :: joinBlank (sprintElems elems) ++ [']']
  | .obj fields => "map[".toList ++
      joinBlank ((sprintFields fields ∅).toList.map fun e => e.1 ++ ':' :: e.2) ++ [']']

def sprintElems : List Json → List (List Char)
  | [] => []
  | j :: rest => sprint j :: sprintElems rest

def sprintFields : List (List Char × Json) → GoMap (List Char) → GoMap (List Char)
  | [], m => m
  | (k, j) :: rest, m => sprintFields rest (m.insert k (sprint j))

end

end

end GoJson
