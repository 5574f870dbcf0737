import Kobox.Library.Stores

/-!
# Images without gaps
-/

namespace ByteMemory
open List
variable {spans : List Span} {start stop address size : ℕ} {bytes : List UInt8} {m : Memory}

namespace Span

theorem Consecutive.append {spans' : List Span} {mid : ℕ} (h : Consecutive spans start mid)
    (h' : Consecutive spans' mid stop) :
    Consecutive (spans ++ spans') start stop := by
  induction spans generalizing start with
  | nil =>
    obtain rfl : start = mid := h
    exact h'
  | cons s rest ih => exact ⟨h.1, ih h.2⟩

theorem Consecutive.pairwise (h : Consecutive spans start stop) : spans.Pairwise Apart := by
  induction spans generalizing start with
  | nil => exact .nil
  | cons s rest ih =>
    refine pairwise_cons.mpr ⟨fun t ht => ?_, ih h.2⟩
    have hlow := (h.2.within ht).1
    have hbase := h.1
    unfold Apart
    omega

theorem Consecutive.exists_mem {x : ℕ} (h : Consecutive spans start stop) (hx : start ≤ x)
    (hx' : x < stop) :
    ∃ s ∈ spans, s.Mem x := by
  induction spans generalizing start with
  | nil =>
    obtain rfl : start = stop := h
    omega
  | cons s rest ih =>
    by_cases hs : x < start + s.size
    · refine ⟨s, mem_cons_self, ?_⟩
      rw [Mem, h.1]
      exact ⟨hx, hs⟩
    · obtain ⟨t, ht, hmem⟩ := ih h.2 (by omega)
      exact ⟨t, mem_cons_of_mem _ ht, hmem⟩

end Span

/-- The stores of an encoder that fills `[start, stop)`, and the image they leave in a cleared
buffer. -/
structure Fills (stores image : List Store) (start stop : ℕ) : Prop where
  mem : ∀ w ∈ stores, w ∈ image
  separate : Separate stores
  zero : ∀ w ∈ image, w ∈ stores ∨ ∃ n, w.bytes = List.replicate n 0
  consecutive : Span.Consecutive (image.map Store.span) start stop

namespace Fills
variable {stores image stores' image' : List Store} {start mid stop : ℕ}

theorem nil (start : ℕ) : Fills [] [] start start := ⟨nofun, .nil, nofun, rfl⟩

theorem within (h : Fills stores image start stop) {w : Store} (hw : w ∈ image) :
    start ≤ w.address ∧ w.address + w.bytes.length ≤ stop :=
  h.consecutive.within (mem_map_of_mem hw)

theorem append (h : Fills stores image start mid) (h' : Fills stores' image' mid stop) :
    Fills (stores ++ stores') (image ++ image') start stop := by
  refine ⟨fun w hw => ?_, ?_, fun w hw => ?_, ?_⟩
  · rcases mem_append.mp hw with hw | hw
    · exact mem_append_left _ (h.mem w hw)
    · exact mem_append_right _ (h'.mem w hw)
  · refine pairwise_append.mpr ⟨h.separate, h'.separate, fun v hv w hw => ?_⟩
    have hv := (h.within (h.mem v hv)).2
    have hw := (h'.within (h'.mem w hw)).1
    simp only [Span.Apart, Store.span]
    omega
  · rcases mem_append.mp hw with hw | hw
    · exact (h.zero w hw).imp_left (mem_append_left _)
    · exact (h'.zero w hw).imp_left (mem_append_right _)
  · rw [map_append]
    exact h.consecutive.append h'.consecutive

theorem field (address : ℕ) (bytes : List UInt8) :
    Fills [⟨address, bytes⟩] [⟨address, bytes⟩] address (address + bytes.length) :=
  ⟨fun _ hw => hw, pairwise_singleton _ _, fun _ hw => .inl hw, rfl, rfl⟩

theorem reserved (address n : ℕ) : Fills [] [.zeros address n] address (address + n) :=
  ⟨nofun, .nil, fun w hw => .inr ⟨n, by rw [mem_singleton.mp hw]; rfl⟩, rfl,
    by rw [Store.span, Store.zeros, length_replicate]; rfl⟩

theorem cons (n : ℕ) (hn : bytes.length = n) (h : Fills stores image (address + n) stop) :
    Fills (⟨address, bytes⟩ :: stores) (⟨address, bytes⟩ :: image) address stop := by
  subst hn
  exact (field address bytes).append h

theorem skip {n : ℕ} (h : Fills stores image (address + n) stop) :
    Fills stores (.zeros address n :: image) address stop :=
  (reserved address n).append h

theorem blank (n : ℕ) (hn : bytes = List.replicate n 0) (h : Fills stores image (address + n) stop) :
    Fills stores (⟨address, bytes⟩ :: image) address stop := by
  subst hn
  exact h.skip

theorem filterMap_range {α : Type} (l : List α) :
    (List.range l.length).filterMap (l[·]?) = l := by
  induction l with
  | nil => rfl
  | cons x rest ih =>
    have hhead : (x :: rest)[0]? = some x := rfl
    rw [length_cons, range_succ_eq_map, filterMap_cons, hhead, filterMap_map]
    exact congrArg (x :: ·) ih

section
variable (h : Fills stores image start stop)
include h

theorem reorder (order : List ℕ) (horder : order.Perm (List.range stores.length))
    (hstores : stores' = order.filterMap (stores[·]?)) : Fills stores' image start stop := by
  have hperm : stores'.Perm stores := by
    rw [hstores]
    exact (horder.filterMap _).trans (.of_eq (filterMap_range stores))
  refine ⟨fun w hw => h.mem w (hperm.mem_iff.mp hw), ?_, fun w hw => ?_, h.consecutive⟩
  · exact (hperm.pairwise_iff fun hvw => hvw.symm).mpr h.separate
  · exact (h.zero w hw).imp_left hperm.mem_iff.mpr

theorem held (hm : ∀ x, start ≤ x → x < stop → m x = 0) : Held (storeAll m stores) image := by
  intro w hw
  by_cases hs : w ∈ stores
  · exact holds_storeAll m h.separate hs
  · have hseparate : Separate image := pairwise_map.mp h.consecutive.pairwise
    have hwithin := h.within hw
    obtain ⟨n, hn⟩ := (h.zero w hw).resolve_left hs
    refine holds_storeAll_zeros hn (fun x hx => ?_) fun v hv => ?_
    · exact hm x (hwithin.1.trans hx.1) (hx.2.trans_le hwithin.2)
    · exact hseparate.apart (h.mem v hv) hw fun heq => hs (heq ▸ hv)

theorem eq_of_held {m' : Memory} (hm : Held m image) (hm' : Held m' image) {x : ℕ}
    (hx : start ≤ x) (hx' : x < stop) : m x = m' x := by
  obtain ⟨s, hs, hlow, hhigh⟩ := h.consecutive.exists_mem hx hx'
  obtain ⟨w, hw, rfl⟩ := mem_map.mp hs
  simp only [Store.span] at hlow hhigh
  have hread := (hm w hw).trans (hm' w hw).symm
  have hbyte := congrArg (fun bytes => bytes[x - w.address]?) hread
  have hlt : x - w.address < w.bytes.length := by omega
  simpa [read, hlt, Nat.add_sub_of_le hlow] using hbyte

end

variable (h : Fills stores image 0 size)
include h

theorem encoded_iff {buffer : List UInt8} (hsize : size ≤ buffer.length) :
    (read (storeAll (cleared buffer size) stores) 0 buffer.length).take size = bytes ↔
      bytes.length = size ∧ Held (ofList bytes) image := by
  have hheld := h.held fun x _ hx => cleared_of_lt buffer hx
  have htake : (read (storeAll (cleared buffer size) stores) 0 buffer.length).take size =
      read (storeAll (cleared buffer size) stores) 0 size := by
    obtain ⟨k, hk⟩ := Nat.exists_eq_add_of_le hsize
    rw [hk, read_append, take_left' (read_length _ _ _)]
  rw [htake]
  constructor
  · rintro rfl
    refine ⟨read_length _ _ _, fun w hw => ?_⟩
    refine (hheld w hw).congr fun x hx => ofList_read ?_
    have hwithin := (h.within hw).2
    exact hx.2.trans_le hwithin
  · rintro ⟨rfl, hbytes⟩
    conv_rhs => rw [← read_ofList bytes]
    refine read_congr fun x hx => ?_
    exact h.eq_of_held hheld hbytes (Nat.zero_le _) (by simpa using hx.2)

theorem exists_held : ∃ bytes : List UInt8, bytes.length = size ∧ Held (ofList bytes) image := by
  have hsize : size ≤ (List.replicate size (0 : UInt8)).length :=
    Nat.le_of_eq length_replicate.symm
  exact ⟨_, (h.encoded_iff hsize).mp rfl⟩

theorem unique {bytes' : List UInt8} (hsize : bytes.length = size) (hsize' : bytes'.length = size)
    (hheld : Held (ofList bytes) image) (hheld' : Held (ofList bytes') image) : bytes = bytes' := by
  subst hsize
  rw [← read_ofList bytes, ← read_ofList bytes', hsize']
  refine read_congr fun x hx => ?_
  exact h.eq_of_held hheld hheld' (Nat.zero_le _) (by simpa using hx.2)

end Fills

section Table
variable {σ α : Type} {size : ℕ} {stores image : ℕ → σ → α → List Store} {next : σ → α → σ}
variable {l : List α}

theorem fills_emitTable (next : σ → α → σ)
    (hrecord : ∀ x ∈ l, ∀ record s,
      Fills (stores record s x) (image record s x) record (record + size))
    (record : ℕ) (s : σ) :
    Fills (emitTable size stores next l record s) (emitTable size image next l record s) record
      (record + l.length * size) := by
  induction l generalizing record s with
  | nil =>
    rw [length_nil, Nat.zero_mul]
    exact .nil record
  | cons x rest ih =>
    have hx := hrecord x mem_cons_self record s
    have hrest := ih (fun y hy => hrecord y (mem_cons_of_mem _ hy)) (record + size) (next s x)
    have hboth := hx.append hrest
    rwa [show record + size + rest.length * size = record + (x :: rest).length * size by
      rw [length_cons, Nat.add_mul]; omega] at hboth

def tableImage (size : ℕ) (image : ℕ → α → List Store) (l : List α) (record : ℕ) : List Store :=
  emitTable size (fun record _ x => image record x) (fun _ _ => ()) l record ()

theorem emitTable_eq_tableImage {β : Type} {image : ℕ → β → List Store} {f : σ → α → β}
    {g : α → β} {record : ℕ} {s : σ}
    (h : ∀ j x, l[j]? = some x → f ((l.take j).foldl next s) x = g x) :
    emitTable size (fun record s x => image record (f s x)) next l record s =
      tableImage size image (l.map g) record := by
  induction l generalizing record s with
  | nil => rfl
  | cons y rest ih =>
    have hy : f s y = g y := h 0 y rfl
    rw [emitTable, hy, ih fun j x hx => h (j + 1) x hx]
    rfl

theorem fills_tableImage {stores image : ℕ → α → List Store}
    (hrecord : ∀ x ∈ l, ∀ record, Fills (stores record x) (image record x) record (record + size))
    (record : ℕ) :
    Fills (tableImage size stores l record) (tableImage size image l record) record
      (record + l.length * size) :=
  fills_emitTable _ (fun x hx record _ => hrecord x hx record) record ()

theorem held_tableImage {image : ℕ → α → List Store} {record : ℕ} :
    Held m (tableImage size image l record) ↔
      ∀ j x, l[j]? = some x → Held m (image (record + j * size) x) :=
  held_emitTable

end Table

end ByteMemory
