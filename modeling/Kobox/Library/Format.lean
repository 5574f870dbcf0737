import Kobox.Library.Images

/-!
# Formats and their codecs
-/

namespace ByteMemory

structure Format (α : Type) where
  size : α → ℕ
  stores : α → List Store
  image : α → List Store
  fills : ∀ x, Fills (stores x) (image x) 0 (size x)

namespace Format
variable {α : Type} {f : Format α} {x : α} {buffer bytes bytes' : List UInt8}

/-- The bytes are the image of the value. -/
structure Represents (f : Format α) (bytes : List UInt8) (x : α) : Prop where
  size : bytes.length = f.size x
  held : Held (ofList bytes) (f.image x)

theorem represents_iff :
    f.Represents bytes x ↔ bytes.length = f.size x ∧ Held (ofList bytes) (f.image x) :=
  ⟨fun h => ⟨h.size, h.held⟩, fun h => ⟨h.1, h.2⟩⟩

def emit (f : Format α) (buffer : List UInt8) (x : α) : List UInt8 :=
  read (storeAll (cleared buffer (f.size x)) (f.stores x)) 0 buffer.length

theorem emit_take_iff (h : f.size x ≤ buffer.length) :
    (f.emit buffer x).take (f.size x) = bytes ↔ f.Represents bytes x := by
  rw [emit, (f.fills x).encoded_iff h]
  exact ⟨fun ⟨hsize, hheld⟩ => ⟨hsize, hheld⟩, fun h => ⟨h.size, h.held⟩⟩

theorem emit_eq_iff (h : buffer.length = f.size x) :
    f.emit buffer x = bytes ↔ f.Represents bytes x := by
  have hlength : (f.emit buffer x).length = f.size x := by
    rw [emit, read_length, h]
  rw [← emit_take_iff (Nat.le_of_eq h.symm), ← hlength, List.take_length]

theorem Represents.unique (h : f.Represents bytes x) (h' : f.Represents bytes' x) :
    bytes = bytes' :=
  (f.fills x).unique h.size h'.size h.held h'.held

theorem represents_take_iff :
    f.Represents (bytes.take (f.size x)) x ↔
      f.size x ≤ bytes.length ∧ Held (ofList bytes) (f.image x) := by
  have hheld : Held (ofList (bytes.take (f.size x))) (f.image x) ↔
      Held (ofList bytes) (f.image x) := by
    have hsame : ∀ w ∈ f.image x, ∀ a, Span.Mem a ⟨w.address, w.bytes.length⟩ →
        ofList (bytes.take (f.size x)) a = ofList bytes a := by
      intro w hw a ha
      have hwithin := ((f.fills x).within hw).2
      exact ofList_take (ha.2.trans_le hwithin)
    constructor
    · exact fun h w hw => (h w hw).congr fun a ha => (hsame w hw a ha).symm
    · exact fun h w hw => (h w hw).congr fun a ha => hsame w hw a ha
  constructor
  · rintro ⟨hsize, h⟩
    rw [List.length_take] at hsize
    exact ⟨by omega, hheld.mp h⟩
  · rintro ⟨hsize, h⟩
    exact ⟨by rw [List.length_take]; omega, hheld.mpr h⟩

def comap {β : Type} (f : Format α) (g : β → α) : Format β where
  size x := f.size (g x)
  stores x := f.stores (g x)
  image x := f.image (g x)
  fills x := f.fills (g x)

def byCases (p : α → Prop) [DecidablePred p] (f g : Format α) : Format α where
  size x := if p x then f.size x else g.size x
  stores x := if p x then f.stores x else g.stores x
  image x := if p x then f.image x else g.image x
  fills x := by
    split_ifs
    · exact f.fills x
    · exact g.fills x

section Cases
variable {β : Type} {p : α → Prop} [DecidablePred p] {g : Format α} {part : β → α} {y : β}

theorem represents_comap :
    (f.comap part).Represents bytes y ↔ f.Represents bytes (part y) :=
  ⟨fun h => ⟨h.size, h.held⟩, fun h => ⟨h.size, h.held⟩⟩

theorem represents_byCases_pos (h : p x) :
    (byCases p f g).Represents bytes x ↔ f.Represents bytes x := by
  have hsize : (byCases p f g).size x = f.size x := if_pos h
  have himage : (byCases p f g).image x = f.image x := if_pos h
  constructor
  · exact fun hr => ⟨hr.size.trans hsize, himage ▸ hr.held⟩
  · exact fun hr => ⟨hr.size.trans hsize.symm, himage ▸ hr.held⟩

theorem represents_byCases_neg (h : ¬p x) :
    (byCases p f g).Represents bytes x ↔ g.Represents bytes x := by
  have hsize : (byCases p f g).size x = g.size x := if_neg h
  have himage : (byCases p f g).image x = g.image x := if_neg h
  constructor
  · exact fun hr => ⟨hr.size.trans hsize, himage ▸ hr.held⟩
  · exact fun hr => ⟨hr.size.trans hsize.symm, himage ▸ hr.held⟩

theorem emit_byCases_pos (h : p x) : (byCases p f g).emit buffer x = f.emit buffer x := by
  simp only [emit, byCases, if_pos h]

theorem emit_byCases_neg (h : ¬p x) : (byCases p f g).emit buffer x = g.emit buffer x := by
  simp only [emit, byCases, if_neg h]

end Cases

end Format

theorem refuse_eq_ok {ε α : Type} {p : Prop} [Decidable p] {e : ε} {call : Except ε α} {y : α} :
    (if p then .error e else call) = .ok y ↔ ¬p ∧ call = .ok y := by
  split_ifs with hp
  · exact iff_of_false nofun fun h => h.1 hp
  · exact (and_iff_right hp).symm

section Codec
variable {α κ ε : Type} {f : Format α} {valid : α → Prop} {accept : κ → α → Prop}
  {encode : List UInt8 → α → Except ε (List UInt8 × ℕ)} {decode : κ → List UInt8 → Except ε α}

/-- What is encoded decodes, in each context that accepts the value, to the value, and what is
decoded encodes, into any buffer that has room, to the same bytes. -/
structure ExactInverse (accept : κ → α → Prop)
    (encode : List UInt8 → α → Except ε (List UInt8 × ℕ)) (decode : κ → List UInt8 → Except ε α) :
    Prop where
  decode_encode : ∀ buffer x result size, encode buffer x = .ok (result, size) →
    ∀ context, accept context x → decode context (result.take size) = .ok x
  encode_decode : ∀ context bytes x, decode context bytes = .ok x →
    ∀ buffer : List UInt8, bytes.length ≤ buffer.length →
      ∃ result, encode buffer x = .ok (result, bytes.length) ∧ result.take bytes.length = bytes

/-- An encoder, which fills a buffer with a valid value and returns its size, and a decoder, which
accepts the valid values that its context asks for. -/
structure Codec (f : Format α) (valid : α → Prop) (accept : κ → α → Prop)
    (encode : List UInt8 → α → Except ε (List UInt8 × ℕ)) (decode : κ → List UInt8 → Except ε α) :
    Prop where
  encode_iff : ∀ buffer x result size, encode buffer x = .ok (result, size) ↔
    valid x ∧ size = f.size x ∧ size ≤ buffer.length ∧ result = f.emit buffer x
  decode_iff : ∀ context bytes x, decode context bytes = .ok x ↔
    (valid x ∧ accept context x) ∧ f.Represents bytes x

theorem Codec.exactInverse (h : Codec f valid accept encode decode) :
    ExactInverse accept encode decode := by
  constructor
  · intro buffer x result size hencode context haccept
    obtain ⟨hvalid, rfl, hsize, rfl⟩ := (h.encode_iff buffer x result size).mp hencode
    exact (h.decode_iff context _ x).mpr ⟨⟨hvalid, haccept⟩, (Format.emit_take_iff hsize).mp rfl⟩
  · intro context bytes x hdecode buffer hfits
    obtain ⟨⟨hvalid, -⟩, hrepresents⟩ := (h.decode_iff context bytes x).mp hdecode
    refine ⟨f.emit buffer x,
      (h.encode_iff buffer x _ _).mpr ⟨hvalid, hrepresents.size, hfits, rfl⟩, ?_⟩
    rw [hrepresents.size] at hfits ⊢
    exact (Format.emit_take_iff hfits).mpr hrepresents

end Codec

end ByteMemory
