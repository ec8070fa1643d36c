import CircuitBlocks.MessagePack.Parser
import CircuitBlocks.Proofs.MessagePack.Record

/-!
# MessagePack — what is read has a format

A size is told by four bytes at most, so whatever bytes a value is read from, none of its sizes takes more.

* `Short` — the values whose sizes take at most four bytes, and so those of all their parts.
* `Head.short_of_head?` — a head tells a short value, or a size below the limit.
* `progress_enter?` — the open arrays and maps stay below the limit.
* **`short_of_decode?`** — a value that is read is short.
* `Short.readText`, `Short.readBytes`, … — and so are the texts and the bytes that it is read as.
-/

namespace CircuitBlocks

/-- Bytes stand for less than what fits into as many. -/
theorem BigEndian.decodeFrom_lt (high : Nat) (bytes : List UInt8) :
    decodeFrom high bytes < (high + 1) * capacity bytes.length := by
  induction bytes generalizing high with
  | nil => show high < (high + 1) * 1; omega
  | cons b bytes ih =>
    have hb : b.toNat < 256 := b.toNat_lt
    calc decodeFrom high (b :: bytes) = decodeFrom (high * 256 + b.toNat) bytes := rfl
      _ < (high * 256 + b.toNat + 1) * capacity bytes.length := ih _
      _ ≤ ((high + 1) * 256) * capacity bytes.length := Nat.mul_le_mul_right _ (by omega)
      _ = (high + 1) * capacity (b :: bytes).length := by
        rw [List.length_cons, capacity_succ, Nat.mul_assoc, Nat.mul_comm 256]

theorem BigEndian.decode_lt (bytes : List UInt8) : decode bytes < capacity bytes.length := by
  have h := decodeFrom_lt 0 bytes
  rwa [Nat.zero_add, Nat.one_mul] at h

theorem BigEndian.capacity_le {count limit : Nat} (h : count ≤ limit) : capacity count ≤ capacity limit :=
  Nat.pow_le_pow_right (by decide) h

namespace MessagePack

open BigEndian (capacity)

/-! ## Short values -/

/-- The values whose sizes take at most four bytes, as do the sizes of their parts. -/
inductive Short : MessagePack → Prop where
  | nil : Short .nil
  | bool (b : Bool) : Short (.bool b)
  | natural (n : Nat) : Short (.natural n)
  | integer (i : Int) : Short (.integer i)
  | float (bytes : List UInt8) : Short (.float bytes)
  | string {bytes} (h : bytes.length < capacity 4) : Short (.string bytes)
  | binary {bytes} (h : bytes.length < capacity 4) : Short (.binary bytes)
  | array {items} (h : items.length < capacity 4) (hitems : ∀ v ∈ items, Short v) : Short (.array items)
  | map {entries} (h : entries.length < capacity 4) (hkeys : ∀ e ∈ entries, Short e.1)
      (hvalues : ∀ e ∈ entries, Short e.2) : Short (.map entries)
  | extension (kind : UInt8) (bytes : List UInt8) : Short (.extension kind bytes)

/-! ## Heads -/

/-- A head that tells a short value, or a size below the limit. -/
def Head.Short : Head → Prop
  | value v => v.Short
  | array size => size < capacity 4
  | map size => size < capacity 4

/-- A format that tells sizes in at most four bytes. -/
def Format.Short : Format → Prop
  | single v => v.Short
  | string count | binary count | array count | map count => count ≤ 4
  | shortString size | shortArray size | shortMap size => size < capacity 1
  | natural _ | integer _ | float _ | extension _ | shortExtension _ => True

theorem short_of_format? {first : UInt8} {f : Format} (h : format? first = some f) : f.Short := by
  have hfirst : first.toNat < 256 := first.toNat_lt
  simp only [format?] at h
  repeat' split at h
  all_goals cases h
  -- the first byte tells a value or a size that is below it, or that a size takes one, two or four bytes
  all_goals first
    | exact True.intro
    | exact Nat.lt_of_le_of_lt (Nat.sub_le _ _) hfirst
    | exact Nat.le_of_ble_eq_true rfl
    | constructor

theorem length_of_takeBytes?_eq {count : Nat} {bytes front rest : List UInt8}
    (h : takeBytes? count bytes = some (front, rest)) : front.length = count := by
  unfold takeBytes? at h
  split at h
  · next hlength =>
    obtain ⟨rfl, -⟩ := Prod.mk.inj (Option.some.inj h)
    exact hlength
  · cases h

theorem lt_of_takeNatural? {count n : Nat} {bytes rest : List UInt8}
    (h : takeNatural? count bytes = some (n, rest)) : n < capacity count := by
  obtain ⟨⟨front, rest'⟩, hfront, heq⟩ := Option.bind_eq_some_iff.1 h
  obtain ⟨rfl, -⟩ := Prod.mk.inj (Option.some.inj heq)
  exact length_of_takeBytes?_eq hfront ▸ BigEndian.decode_lt front

theorem length_lt_of_takeSized? {count : Nat} {bytes data rest : List UInt8}
    (h : takeSized? count bytes = some (data, rest)) : data.length < capacity count := by
  obtain ⟨⟨size, rest'⟩, hsize, hdata⟩ := Option.bind_eq_some_iff.1 h
  exact length_of_takeBytes?_eq hdata ▸ lt_of_takeNatural? hsize

theorem short_of_takeExtension? {size : Nat} {bytes rest : List UInt8} {v : MessagePack}
    (h : takeExtension? size bytes = some (v, rest)) : v.Short := by
  obtain ⟨⟨front, rest'⟩, -, heq⟩ := Option.bind_eq_some_iff.1 h
  obtain ⟨rfl, -⟩ := Prod.mk.inj (Option.some.inj heq)
  exact .extension _ _

/-- What a short format reads is short. -/
theorem Format.Short.head {f : Format} (hf : f.Short) {bytes rest : List UInt8} {h : Head}
    (hread : f.read? bytes = some (h, rest)) : h.Short := by
  cases f <;>
    simp only [Format.read?, bind, Option.bind_eq_some_iff, pure, Option.some.injEq, Prod.mk.injEq] at hread
  case single => exact hread.1 ▸ hf
  case natural | integer | float =>
    obtain ⟨_, _, rfl, -⟩ := hread
    constructor
  case extension =>
    obtain ⟨_, _, ⟨v, r⟩, hv, rfl, -⟩ := hread
    exact short_of_takeExtension? hv
  case shortExtension =>
    obtain ⟨⟨v, r⟩, hv, rfl, -⟩ := hread
    exact short_of_takeExtension? hv
  -- a size in a prefix of some bytes is below the capacity of these bytes
  case string =>
    obtain ⟨⟨b, r⟩, hb, rfl, -⟩ := hread
    exact .string (Nat.lt_of_lt_of_le (length_lt_of_takeSized? hb) (BigEndian.capacity_le hf))
  case binary =>
    obtain ⟨⟨b, r⟩, hb, rfl, -⟩ := hread
    exact .binary (Nat.lt_of_lt_of_le (length_lt_of_takeSized? hb) (BigEndian.capacity_le hf))
  case shortString =>
    obtain ⟨⟨b, r⟩, hb, rfl, -⟩ := hread
    rw [← length_of_takeBytes?_eq hb] at hf
    exact .string (Nat.lt_of_lt_of_le hf (BigEndian.capacity_le (by decide)))
  case array | map =>
    obtain ⟨⟨n, r⟩, hn, rfl, -⟩ := hread
    exact Nat.lt_of_lt_of_le (lt_of_takeNatural? hn) (BigEndian.capacity_le hf)
  case shortArray | shortMap =>
    obtain ⟨rfl, -⟩ := hread
    exact Nat.lt_of_lt_of_le hf (BigEndian.capacity_le (by decide))

theorem Head.short_of_head? {first : UInt8} {bytes rest : List UInt8} {h : Head}
    (hhead : head? first bytes = some (h, rest)) : h.Short := by
  obtain ⟨f, hf, hread⟩ := Option.bind_eq_some_iff.1 hhead
  exact (short_of_format? hf).head hread

/-! ## Open arrays and maps -/

/-- A frame that waits for something, and whose values are short and few enough when it is complete. -/
def Frame.Short : Frame → Prop
  | array left items => 0 < left ∧ items.length + left < capacity 4 ∧ ∀ v ∈ items, v.Short
  | key left entries =>
    0 < left ∧ entries.length + left < capacity 4 ∧ (∀ e ∈ entries, e.1.Short) ∧ ∀ e ∈ entries, e.2.Short
  | value left entries k =>
    0 < left ∧ entries.length + left < capacity 4 ∧ (∀ e ∈ entries, e.1.Short) ∧ (∀ e ∈ entries, e.2.Short) ∧
      k.Short

/-- What reading a head comes to, a short value or open frames that are short. -/
def Progress : MessagePack ⊕ List Frame → Prop
  | .inl v => v.Short
  | .inr stack => ∀ frame ∈ stack, frame.Short

/-- A short value that is given to short frames makes short progress. -/
theorem progress_complete {v : MessagePack} {stack : List Frame} (hv : v.Short)
    (hstack : ∀ frame ∈ stack, frame.Short) : Progress (complete v stack) := by
  -- a frame that is full becomes a value, which is given to the frame below it
  induction stack generalizing v with
  | nil => exact hv
  | cons frame stack ih =>
    obtain ⟨hframe, hrest⟩ := List.forall_mem_cons.1 hstack
    cases frame with
    | array left items =>
      obtain ⟨hleft, hsize, hitems⟩ := hframe
      have hall : ∀ u ∈ v :: items, u.Short := List.forall_mem_cons.2 ⟨hv, hitems⟩
      rw [complete]
      -- the last item fills the frame; before it, the frame goes on with one item more
      split
      · refine ih (.array ?_ fun u hu => hall u (List.mem_reverse.1 hu)) hrest
        rw [List.length_reverse, List.length_cons]
        omega
      · refine List.forall_mem_cons.2 ⟨⟨by omega, ?_, hall⟩, hrest⟩
        rw [List.length_cons]
        omega
    | key left entries =>
      obtain ⟨hleft, hsize, hkeys, hvalues⟩ := hframe
      exact List.forall_mem_cons.2 ⟨⟨hleft, hsize, hkeys, hvalues, hv⟩, hrest⟩
    | value left entries key =>
      obtain ⟨hleft, hsize, hkeys, hvalues, hkey⟩ := hframe
      have hkeys : ∀ e ∈ (key, v) :: entries, e.1.Short := List.forall_mem_cons.2 ⟨hkey, hkeys⟩
      have hvalues : ∀ e ∈ (key, v) :: entries, e.2.Short := List.forall_mem_cons.2 ⟨hv, hvalues⟩
      rw [complete]
      split
      · refine ih (.map ?_ (fun e he => hkeys e (List.mem_reverse.1 he))
          fun e he => hvalues e (List.mem_reverse.1 he)) hrest
        rw [List.length_reverse, List.length_cons]
        omega
      · refine List.forall_mem_cons.2 ⟨⟨by omega, ?_, hkeys, hvalues⟩, hrest⟩
        rw [List.length_cons]
        omega

/-- To enter a short head makes short progress. -/
theorem progress_enter? {h : Head} {stack : List Frame} {r : MessagePack ⊕ List Frame} (hh : h.Short)
    (hstack : ∀ frame ∈ stack, frame.Short) (henter : enter? h stack = some r) : Progress r := by
  unfold enter? at henter
  split at henter
  · cases henter
  · cases h with
    | value v =>
      cases henter
      exact progress_complete hh hstack
    | array size =>
      cases henter
      split
      · -- an empty container is complete at once
        exact progress_complete (.array (by decide) (List.forall_mem_nil _)) hstack
      · -- a new container has all its items to come
        refine List.forall_mem_cons.2 ⟨⟨by omega, ?_, List.forall_mem_nil _⟩, hstack⟩
        rwa [List.length_nil, Nat.zero_add]
    | map size =>
      cases henter
      split
      · exact progress_complete (.map (by decide) (List.forall_mem_nil _) (List.forall_mem_nil _)) hstack
      · refine List.forall_mem_cons.2 ⟨⟨by omega, ?_, List.forall_mem_nil _, List.forall_mem_nil _⟩, hstack⟩
        rwa [List.length_nil, Nat.zero_add]

/-- What is read into short containers is short. -/
theorem short_of_decodeInto? {stack : List Frame} {bytes rest : List UInt8} {v : MessagePack}
    (hstack : ∀ frame ∈ stack, frame.Short) (h : decodeInto? stack bytes = some (v, rest)) : v.Short := by
  fun_induction decodeInto? stack bytes with
  | case1 | case2 | case3 => cases h
  | case4 stack first bytes head rest' hhead v' henter =>
    cases h
    exact progress_enter? (Head.short_of_head? hhead) hstack henter
  | case5 stack first bytes head rest' hhead stack' henter ih =>
    exact ih (progress_enter? (Head.short_of_head? hhead) hstack henter) h

/-- Whatever bytes a value is read from, its sizes take at most four. -/
theorem short_of_decode? {bytes rest : List UInt8} {v : MessagePack} (h : decode? bytes = some (v, rest)) :
    v.Short :=
  short_of_decodeInto? (List.forall_mem_nil _) h

/-! ## What short values are read as -/

section Readers

variable {v : MessagePack} {α : Type} {read : MessagePack → Option α}

theorem Short.readText (hv : v.Short) {s : String} (h : readText v = some s) :
    (Text.Utf8.encode s).length < capacity 4 := by
  cases hv with
  | string hbytes | binary hbytes => rwa [Text.Utf8.encode_of_decode? h]
  | _ => cases h

theorem Short.readBytes (hv : v.Short) {bytes : List UInt8} (h : readBytes v = some bytes) :
    bytes.length < capacity 4 := by
  cases hv with
  | string hbytes | binary hbytes =>
    cases h
    exact hbytes
  | array hsize hitems => rwa [(mapM_eq_some h).1]
  | _ => cases h

/-- What a short value is a list of is read from short values. -/
theorem Short.readList (hv : v.Short) {items : List α} (h : readList read v = some items) {x : α} (hx : x ∈ items) :
    ∃ u : MessagePack, u.Short ∧ read u = some x := by
  cases hv with
  | array hsize hitems =>
    obtain ⟨u, hu, hread⟩ := (mapM_eq_some h).2 x hx
    exact ⟨u, hitems u hu, hread⟩
  | binary hbytes =>
    obtain ⟨u, hu, hread⟩ := (mapM_eq_some h).2 x hx
    obtain ⟨b, -, rfl⟩ := List.mem_map.1 hu
    exact ⟨_, .natural _, hread⟩
  | _ => cases h

/-- The fields of a short record are short. -/
theorem Short.fields? (hv : v.Short) {names : List String} {fields : List (String × MessagePack)}
    (h : fields? names v = some fields) : ∀ f ∈ fields, f.2.Short := by
  cases hv with
  | map hsize hkeys hvalues => exact forall_of_declaredEntries? hvalues h
  | array hsize hitems =>
    rw [MessagePack.fields?] at h
    split at h
    · cases h
      exact fun f hf => hitems f.2 (List.of_mem_zip hf).2
    · cases h
  | _ => cases h

end Readers

end MessagePack

end CircuitBlocks
