import Kobox.Library.ByteMemory

/-!
# Stores into a cleared buffer
-/

namespace ByteMemory
open List
variable {m : Memory} {n x : ℕ} {stores : List Store} {w : Store}

def ofList (bytes : List UInt8) : Memory := fun x => bytes.getD x 0

theorem read_ofList (bytes : List UInt8) : read (ofList bytes) 0 bytes.length = bytes := by
  refine read_eq fun i byte hi => ?_
  rw [Nat.zero_add, ofList, getD_eq_getElem?_getD, hi, Option.getD_some]

theorem ofList_read (h : x < n) : ofList (read m 0 n) x = m x := by
  simp [ofList, read, h]

theorem ofList_take {bytes : List UInt8} (h : x < n) :
    ofList (bytes.take n) x = ofList bytes x := by
  simp only [ofList, getD_eq_getElem?_getD, getElem?_take_of_lt h]

theorem read_ofList_window {bytes : List UInt8} {a : ℕ} (h : a + n ≤ bytes.length) :
    read (ofList bytes) a n = (bytes.drop a).take n := by
  have hlength : ((bytes.drop a).take n).length = n := by
    rw [length_take, length_drop]
    omega
  conv_lhs => rw [← hlength]
  refine read_eq fun i byte hi => ?_
  have hin : i < n := by
    rw [← hlength]
    exact (List.getElem?_eq_some_iff.mp hi).1
  rw [getElem?_take_of_lt hin, getElem?_drop] at hi
  rw [ofList, getD_eq_getElem?_getD, hi, Option.getD_some]

def cleared (bytes : List UInt8) (n : ℕ) : Memory := fun x => if x < n then 0 else ofList bytes x

theorem cleared_of_lt (bytes : List UInt8) (h : x < n) : cleared bytes n x = 0 := if_pos h

structure Store where
  address : ℕ
  bytes : List UInt8
  deriving DecidableEq, Repr

namespace Store

def span (w : Store) : Span := ⟨w.address, w.bytes.length⟩

def zeros (address n : ℕ) : Store := ⟨address, List.replicate n 0⟩

end Store

def storeAll (m : Memory) (stores : List Store) : Memory :=
  stores.foldl (fun m w => write m w.address w.bytes) m

def Separate (stores : List Store) : Prop := stores.Pairwise fun v w => v.span.Apart w.span

theorem Separate.apart (h : Separate stores) {v : Store} (hv : v ∈ stores) (hw : w ∈ stores)
    (hne : v ≠ w) : v.span.Apart w.span := by
  have : Std.Symm fun v w : Store => v.span.Apart w.span := ⟨fun _ _ hvw => hvw.symm⟩
  exact List.Pairwise.forall h hv hw hne

theorem storeAll_outside (m : Memory) (h : ∀ w ∈ stores, ¬w.span.Mem x) :
    storeAll m stores x = m x := by
  induction stores generalizing m with
  | nil => rfl
  | cons w rest ih =>
    refine (ih (write m w.address w.bytes) fun v hv => h v (mem_cons_of_mem _ hv)).trans ?_
    exact write_outside m w.address w.bytes (h w mem_cons_self)

theorem holds_storeAll (m : Memory) (h : Separate stores) (hw : w ∈ stores) :
    Holds (storeAll m stores) w.address w.bytes := by
  induction stores generalizing m with
  | nil => cases hw
  | cons v rest ih =>
    obtain ⟨hv, hrest⟩ := pairwise_cons.mp h
    rcases mem_cons.mp hw with rfl | hw
    · refine (holds_write m w.address w.bytes).congr fun x hx => ?_
      refine storeAll_outside (write m w.address w.bytes) fun u hu => ?_
      exact Span.apart_iff_not_mem.mp (hv u hu) x hx
    · exact ih (write m v.address v.bytes) hrest hw

theorem holds_storeAll_zeros (hzero : w.bytes = List.replicate n 0)
    (hm : ∀ x, w.span.Mem x → m x = 0) (h : ∀ v ∈ stores, v.span.Apart w.span) :
    Holds (storeAll m stores) w.address w.bytes := by
  refine read_eq fun i byte hi => ?_
  have hmem : w.span.Mem (w.address + i) :=
    ⟨Nat.le_add_right _ _, Nat.add_lt_add_left (List.getElem?_eq_some_iff.mp hi).1 _⟩
  have hbyte : byte = 0 := by
    rw [hzero] at hi
    exact eq_of_mem_replicate (mem_of_getElem? hi)
  have hout : ∀ v ∈ stores, ¬v.span.Mem (w.address + i) := fun v hv hv' =>
    Span.apart_iff_not_mem.mp (h v hv) _ hv' hmem
  rw [storeAll_outside m hout, hbyte]
  exact hm _ hmem

/-! ### Images -/

def Held (m : Memory) (image : List Store) : Prop := ∀ w ∈ image, Holds m w.address w.bytes

@[simp] theorem held_nil (m : Memory) : Held m [] := nofun

@[simp] theorem held_cons {image : List Store} :
    Held m (w :: image) ↔ Holds m w.address w.bytes ∧ Held m image :=
  forall_mem_cons

theorem held_append {image image' : List Store} :
    Held m (image ++ image') ↔ Held m image ∧ Held m image' :=
  forall_mem_append

/-- The stores of an encoder that fills records at `[start, stop)` and a heap at `[low, high)`, and
the image they leave in a cleared buffer. -/
structure Emits (stores image : List Store) (start stop low high : ℕ) : Prop where
  separate : Separate image
  sub : stores.Sublist image
  zero : ∀ w ∈ image, w ∈ stores ∨ ∃ n, w.bytes = List.replicate n 0
  placed : ∀ w ∈ image, (start ≤ w.address ∧ w.address + w.bytes.length ≤ stop) ∨
    (low ≤ w.address ∧ w.address + w.bytes.length ≤ high)
  ordered : start ≤ stop
  below : stop ≤ low
  heap : low ≤ high

namespace Emits
variable {stores image stores' image' : List Store} {start stop start' stop' low mid high : ℕ}

theorem nil (h : start ≤ stop) (hb : stop ≤ low) (hh : low ≤ high) :
    Emits [] [] start stop low high :=
  ⟨.nil, .slnil, nofun, nofun, h, hb, hh⟩

theorem append (h : Emits stores image start stop low mid)
    (h' : Emits stores' image' start' stop' mid high) (hs : stop ≤ start') (hl : stop' ≤ low) :
    Emits (stores ++ stores') (image ++ image') start stop' low high := by
  have ho := h.ordered
  have ho' := h'.ordered
  have hh := h.heap
  have hh' := h'.heap
  refine ⟨?_, h.sub.append h'.sub, fun w hw => ?_, fun w hw => ?_, by omega, hl, by omega⟩
  · refine pairwise_append.mpr ⟨h.separate, h'.separate, fun v hv w hw => ?_⟩
    have hpv := h.placed v hv
    have hpw := h'.placed w hw
    simp only [Span.Apart, Store.span]
    omega
  · rcases mem_append.mp hw with hw | hw
    · exact (h.zero w hw).imp_left (mem_append_left _)
    · exact (h'.zero w hw).imp_left (mem_append_right _)
  · rcases mem_append.mp hw with hw | hw
    · have hp := h.placed w hw
      omega
    · have hp := h'.placed w hw
      omega

theorem field (address : ℕ) (bytes : List UInt8) (hb : address + bytes.length ≤ low) :
    Emits [⟨address, bytes⟩] [⟨address, bytes⟩] address (address + bytes.length) low low where
  separate := pairwise_singleton _ _
  sub := .refl _
  zero _ hw := .inl hw
  placed w hw := by
    rw [mem_singleton.mp hw]
    exact .inl ⟨le_refl _, le_refl _⟩
  ordered := Nat.le_add_right _ _
  below := hb
  heap := le_refl _

theorem reserved (address n : ℕ) (hb : address + n ≤ low) :
    Emits [] [.zeros address n] address (address + n) low low where
  separate := pairwise_singleton _ _
  sub := nil_sublist _
  zero w hw := .inr ⟨n, by rw [mem_singleton.mp hw]; rfl⟩
  placed w hw := by
    rw [mem_singleton.mp hw, Store.zeros, length_replicate]
    exact .inl ⟨le_refl _, le_refl _⟩
  ordered := Nat.le_add_right _ _
  below := hb
  heap := le_refl _

theorem string (bytes : List UInt8) (hb : start ≤ low) :
    Emits [⟨low, bytes⟩] [⟨low, bytes⟩] start start low (low + bytes.length) where
  separate := pairwise_singleton _ _
  sub := .refl _
  zero _ hw := .inl hw
  placed w hw := by
    rw [mem_singleton.mp hw]
    exact .inr ⟨le_refl _, le_refl _⟩
  ordered := le_refl _
  below := hb
  heap := Nat.le_add_right _ _

theorem cons {address : ℕ} {bytes : List UInt8} (n : ℕ) (hn : bytes.length = n)
    (hb : address + n ≤ start) (h : Emits stores image start stop low high) :
    Emits (⟨address, bytes⟩ :: stores) (⟨address, bytes⟩ :: image) address stop low high := by
  rw [← hn] at hb
  exact (field address bytes (hb.trans (h.ordered.trans h.below))).append h hb h.below

theorem skip {address : ℕ} (hb : address + n ≤ start) (h : Emits stores image start stop low high) :
    Emits stores (.zeros address n :: image) address stop low high :=
  (reserved address n (hb.trans (h.ordered.trans h.below))).append h hb h.below

theorem holds (h : Emits stores image start stop low high) (hm : ∀ x < high, m x = 0)
    (hw : w ∈ image) :
    Holds (storeAll m stores) w.address w.bytes := by
  by_cases hs : w ∈ stores
  · exact holds_storeAll m (h.separate.sublist h.sub) hs
  · obtain ⟨n, hn⟩ := (h.zero w hw).resolve_left hs
    refine holds_storeAll_zeros hn (fun x hx => hm x (hx.2.trans_le ?_)) fun v hv => ?_
    · have hp := h.placed w hw
      have hb := h.below
      have hh := h.heap
      simp only [Store.span]
      omega
    · exact h.separate.apart (h.sub.mem hv) hw fun heq => hs (heq ▸ hv)

end Emits

section Table
variable {σ α : Type} {size : ℕ} {stores image : ℕ → σ → α → List Store} {next : σ → α → σ}

/-- The stores for a table of records of one size, which go on from a state. -/
def emitTable (size : ℕ) (stores : ℕ → σ → α → List Store) (next : σ → α → σ) :
    List α → ℕ → σ → List Store
  | [], _, _ => []
  | x :: rest, record, s =>
    stores record s x ++ emitTable size stores next rest (record + size) (next s x)

variable {l : List α}

theorem emitTable_emits (heap : σ → ℕ)
    (hrecord : ∀ x ∈ l, ∀ record s, record + size ≤ heap s →
      Emits (stores record s x) (image record s x) record (record + size) (heap s) (heap (next s x)))
    {record : ℕ} {s : σ} (hb : record + l.length * size ≤ heap s) :
    Emits (emitTable size stores next l record s) (emitTable size image next l record s) record
      (record + l.length * size) (heap s) (heap (l.foldl next s)) := by
  induction l generalizing record s with
  | nil => exact .nil (Nat.le_add_right _ _) hb (le_refl _)
  | cons x rest ih =>
    rw [length_cons, Nat.add_mul, Nat.one_mul] at hb ⊢
    have hx := hrecord x mem_cons_self record s (by omega)
    have hheap := hx.heap
    have hfits : record + size + rest.length * size ≤ heap (next s x) := by omega
    have hrest := ih (fun y hy => hrecord y (mem_cons_of_mem _ hy)) hfits
    have hboth := hx.append hrest (le_refl _) (by omega)
    rwa [show record + size + rest.length * size = record + (rest.length * size + size) by omega]
      at hboth

theorem le_foldl {next : ℕ → α → ℕ} (hnext : ∀ cursor x, cursor ≤ next cursor x) (l : List α)
    (cursor : ℕ) : cursor ≤ l.foldl next cursor := by
  induction l generalizing cursor with
  | nil => exact le_refl _
  | cons x rest ih => exact (hnext cursor x).trans (ih (next cursor x))

theorem foldl_le {next : ℕ → α → ℕ} {k : ℕ}
    (hnext : ∀ x ∈ l, ∀ cursor, next cursor x ≤ cursor + k) (cursor : ℕ) :
    l.foldl next cursor ≤ cursor + l.length * k := by
  induction l generalizing cursor with
  | nil => exact Nat.le_add_right _ _
  | cons x rest ih =>
    have hx := hnext x mem_cons_self cursor
    have hrest := ih (fun y hy => hnext y (mem_cons_of_mem _ hy)) (next cursor x)
    rw [foldl_cons, length_cons, Nat.add_mul, Nat.one_mul]
    omega

theorem cursor_le {next : ℕ → α → ℕ} (hnext : ∀ cursor x, cursor ≤ next cursor x) {j cursor : ℕ}
    {x : α} (hx : l[j]? = some x) :
    next ((l.take j).foldl next cursor) x ≤ l.foldl next cursor := by
  obtain ⟨hj, rfl⟩ := List.getElem?_eq_some_iff.mp hx
  have hsplit : l = l.take j ++ l[j] :: l.drop (j + 1) := by
    rw [← List.drop_eq_getElem_cons hj, List.take_append_drop]
  have hfold := congrArg (List.foldl next cursor) hsplit
  rw [List.foldl_append, List.foldl_cons] at hfold
  rw [hfold]
  exact le_foldl hnext _ _

theorem held_emitTable {record : ℕ} {s : σ} :
    Held m (emitTable size image next l record s) ↔
      ∀ j x, l[j]? = some x → Held m (image (record + j * size) ((l.take j).foldl next s) x) := by
  induction l generalizing record s with
  | nil => exact ⟨fun _ j x hx => by simp at hx, fun _ => held_nil m⟩
  | cons y rest ih =>
    have hrecord (j : ℕ) : record + (j + 1) * size = record + size + j * size := by
      rw [Nat.add_mul]
      omega
    rw [emitTable, held_append, ih]
    constructor
    · rintro ⟨hy, hrest⟩ j x hx
      cases j with
      | zero =>
        obtain rfl : y = x := by simpa using hx
        rw [Nat.zero_mul, Nat.add_zero]
        exact hy
      | succ j =>
        rw [hrecord]
        exact hrest j x (by simpa using hx)
    · intro h
      have hhead := h 0 y rfl
      rw [Nat.zero_mul, Nat.add_zero] at hhead
      refine ⟨hhead, fun j x hx => ?_⟩
      rw [← hrecord]
      exact h (j + 1) x (by simpa using hx)

theorem mem_emitTable {record j : ℕ} {s : σ} {x : α} (hx : l[j]? = some x)
    (hw : w ∈ image (record + j * size) ((l.take j).foldl next s) x) :
    w ∈ emitTable size image next l record s := by
  induction l generalizing record j s with
  | nil => simp at hx
  | cons y rest ih =>
    cases j with
    | zero =>
      obtain rfl : y = x := by simpa using hx
      rw [Nat.zero_mul, Nat.add_zero] at hw
      exact mem_append_left _ hw
    | succ j =>
      refine mem_append_right _ (ih (by simpa using hx) ?_)
      rw [show record + (j + 1) * size = record + size + j * size by rw [Nat.add_mul]; omega] at hw
      simpa using hw

end Table

end ByteMemory
