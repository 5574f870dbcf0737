import Kobox.Manifest.Packaging

/-!
# The order of the records of a manifest
-/

namespace Kobox.Manifest
open ByteMemory Protocol List

/-- The tables in the order of `docs/module-closure.md`, with unique keys, and bindings of slots
that are declared. -/
structure SealedOrder (tables : Tables (List UInt8)) : Prop where
  artifacts : tables.artifacts.Pairwise fun a b => compare a.nodeId b.nodeId = .lt
  dependencies : tables.dependencies.Pairwise fun a b =>
    (compare a.consumerNodeId b.consumerNodeId).then
      (compare a.providerNodeId b.providerNodeId) = .lt
  exports : tables.exports.Pairwise fun a b =>
    (compare a.nodeId b.nodeId).then (compare a.name b.name) = .lt
  imports : tables.imports.Pairwise fun a b =>
    (compare a.consumerNodeId b.consumerNodeId).then
      (compare a.consumerName b.consumerName) = .lt
  resources : tables.resources.Pairwise fun a b => compare a.slotId b.slotId = .lt
  bindings : tables.bindings.Pairwise fun a b =>
    (compare a.slotId b.slotId).then (compare a.nodeId b.nodeId) = .lt
  declared : ∀ b ∈ tables.bindings, ∃ r ∈ tables.resources, r.slotId = b.slotId

/-- The same artifacts, and the same records of every other kind, in any order and any number of
times. -/
structure Reordered (source source' : Source) : Prop where
  artifacts : source.artifacts = source'.artifacts
  dependencies : ∀ d, d ∈ source.dependencies ↔ d ∈ source'.dependencies
  exports : ∀ e, e ∈ source.exports ↔ e ∈ source'.exports
  imports : ∀ i, i ∈ source.imports ↔ i ∈ source'.imports
  resources : ∀ r, r ∈ source.resources ↔ r ∈ source'.resources
  bindings : ∀ b, b ∈ source.bindings ↔ b ∈ source'.bindings

theorem Reordered.valid {source source' : Source} (h : Reordered source source')
    (hv : source.Valid) : source'.Valid := by
  have hdeclares {nodeId : UInt32} (hnode : source.Declares nodeId) : source'.Declares nodeId := by
    rw [Tables.Declares, ← h.artifacts]
    exact hnode
  refine ⟨h.artifacts ▸ hv.artifacts, h.artifacts ▸ hv.ascending, h.artifacts ▸ hv.root,
    fun d hd => ?_, fun e he => ?_, fun i hi => ?_,
    fun r hr => hv.resources r ((h.resources r).mpr hr), fun b hb => ?_⟩
  · obtain ⟨hdistinct, hconsumer, hprovider⟩ := hv.dependencies d ((h.dependencies d).mpr hd)
    exact ⟨hdistinct, hdeclares hconsumer, hdeclares hprovider⟩
  · obtain ⟨hkind, hnode⟩ := hv.exports e ((h.exports e).mpr he)
    exact ⟨hkind, hdeclares hnode⟩
  · obtain ⟨hrecord, hconsumer, hprovider⟩ := hv.imports i ((h.imports i).mpr hi)
    exact ⟨hrecord, hdeclares hconsumer, hprovider.imp_right hdeclares⟩
  · obtain ⟨hslot, hnode⟩ := hv.bindings b ((h.bindings b).mpr hb)
    exact ⟨hslot, hdeclares hnode⟩

theorem Reordered.symm {source source' : Source} (h : Reordered source source') :
    Reordered source' source :=
  ⟨h.artifacts.symm, fun d => (h.dependencies d).symm, fun e => (h.exports e).symm,
    fun i => (h.imports i).symm, fun r => (h.resources r).symm, fun b => (h.bindings b).symm⟩

theorem artifacts_of_decode {buffer : List UInt8} {out : Manifest} {tables : Tables Slice}
    (h : (decode (some buffer) out).1 = .ok) (hreads : (decode (some buffer) out).2.Reads tables) :
    tables.artifacts.Pairwise fun a b => compare a.nodeId b.nodeId = .lt := by
  obtain ⟨-, tables', hreads', hvalid⟩ := decode_ok_iff.mp h
  rw [decode_manifest h] at hreads
  rw [hreads.stores.unique hreads'.stores]
  exact hvalid.ascending.imp fun hlt => Std.compare_eq_lt.mpr hlt

theorem lt_of_sorted {α κ : Type} {major : α → α → Ordering} (minor : α → α → Ordering)
    {key : α → κ} {l : List α}
    (hsorted : l.Pairwise fun a b => (major a b).then (minor a b) ≠ .gt)
    (hkey : ∀ a b, major a b = .eq → key a = key b) (hunique : (l.map key).Nodup) :
    l.Pairwise fun a b => major a b = .lt := by
  have hne : l.Pairwise fun a b => key a ≠ key b := pairwise_map.mp hunique
  refine (hsorted.and hne).imp fun {a b} h => ?_
  cases hmajor : major a b with
  | lt => rfl
  | eq => exact absurd (hkey a b hmajor) h.2
  | gt => exact absurd (by rw [hmajor]; rfl) h.1

theorem Sealed.order {r : Closure.Records} (h : Sealed r) (contentSize : UInt32 → UInt64) :
    SealedOrder (pack contentSize r) where
  artifacts := pairwise_map.mpr (h.artifacts_ascending.imp fun hlt => Std.compare_eq_lt.mpr hlt)
  dependencies := by
    refine pairwise_map.mpr (lt_of_sorted (fun _ _ => .eq) (h.dependencies.imp fun hle => ?_)
      Closure.compareDependencies_key h.sound.dependencies.unique)
    rwa [Ordering.then_eq]
  exports := by
    refine pairwise_map.mpr (lt_of_sorted
      (fun a b : Closure.ExportRecord => compare a.kind.code b.kind.code)
      (h.exports.imp fun hle => ?_) (fun a b heq => ?_) h.sound.exports.unique)
    · rwa [Ordering.then_assoc]
    · obtain ⟨hnode, hname⟩ := Ordering.then_eq_eq.mp heq
      exact Prod.ext (Std.LawfulEqOrd.compare_eq_iff_eq.mp hnode)
        (Std.LawfulEqOrd.compare_eq_iff_eq.mp hname)
  imports := by
    refine pairwise_map.mpr (lt_of_sorted
      (fun a b : Closure.ImportRecord => compare a.providerNodeId b.providerNodeId)
      (h.imports.imp fun hle => ?_) (fun a b heq => ?_) h.sound.imports.unique)
    · rwa [Ordering.then_assoc]
    · obtain ⟨hnode, hname⟩ := Ordering.then_eq_eq.mp heq
      exact Prod.ext (Std.LawfulEqOrd.compare_eq_iff_eq.mp hnode)
        (Std.LawfulEqOrd.compare_eq_iff_eq.mp hname)
  resources := pairwise_map.mpr (h.resources_ascending.imp fun hlt => Std.compare_eq_lt.mpr hlt)
  bindings := by
    refine pairwise_map.mpr (lt_of_sorted (fun _ _ => .eq)
      (h.resourceBindings.imp fun hle => ?_) Closure.compareResourceBindings_key
      h.sound.resourceBindings.unique)
    rwa [Ordering.then_eq]
  declared := by
    intro b hb
    obtain ⟨record, hrecord, rfl⟩ := mem_map.mp hb
    obtain ⟨x, hx, hid⟩ := (h.sealable.resources.bindings record hrecord).1
    exact ⟨_, mem_map_of_mem hx, hid⟩

/-- The decoder orders the artifacts and no other records: it accepts the others in any order and
any number of times. The manifest of a sealed closure has the sealed order. -/
theorem manifest_order :
    (∀ (buffer : List UInt8) (out : Manifest) (tables : Tables Slice),
      (decode (some buffer) out).1 = .ok → (decode (some buffer) out).2.Reads tables →
      tables.artifacts.Pairwise fun a b => compare a.nodeId b.nodeId = .lt) ∧
    (∀ (source source' : Source) (buffer buffer' bytes bytes' : List UInt8) (size size' : ℕ)
      (out out' : Manifest), Reordered source source' →
      encode buffer source = .ok (bytes, size) → encode buffer' source' = .ok (bytes', size') →
      ((decode (some (bytes.take size)) out).1 = .ok ↔
        (decode (some (bytes'.take size')) out').1 = .ok)) ∧
    ∀ (qsort : Closure.Qsort) (grants : ℕ → Bool) (digest : List UInt8)
      (calls : List (Closure.Call × Bool)) (closure : Closure.Storage)
      (contentSize : UInt32 → UInt64) (buffer bytes : List UInt8) (size : ℕ) (out : Manifest),
      Closure.builderSeal qsort grants (Closure.run (.created digest) calls) = .ok closure →
      (∀ a ∈ closure.records.artifacts, contentSize a.nodeId ≠ 0) →
      encode buffer (pack contentSize closure.records) = .ok (bytes, size) →
      (decode (some (bytes.take size)) out).1 = .ok ∧
        ∃ tables, (decode (some (bytes.take size)) out).2.Reads tables ∧
          SealedOrder (tables.map (decode (some (bytes.take size)) out).2.string) := by
  refine ⟨fun buffer out tables h hreads => artifacts_of_decode h hreads,
    fun source source' buffer buffer' bytes bytes' size size' out out' h hencode hencode' => ?_,
    fun qsort grants digest calls closure contentSize buffer bytes size out hseal hsizes hencode => ?_⟩
  · rw [decode_encoded_iff hencode, decode_encoded_iff hencode']
    exact ⟨h.valid, h.symm.valid⟩
  · have hsealed := sealed_records ((Closure.Storage.wellformed_created digest).run calls) hseal
    have hvalid := valid_pack hsealed.sound hsealed.sealable contentSize hsizes
      hsealed.artifacts_ascending
    obtain ⟨haccepted, tables, hreads, hmap⟩ := (encoded_of_encode hencode).decode_ok hvalid out
    refine ⟨haccepted, tables, hreads, ?_⟩
    rw [hmap]
    exact hsealed.order contentSize

namespace Unordered

def source : Source where
  artifacts :=
    [⟨1, 0, 3, 16, Sample.digest, [0x61], [], [], []⟩, ⟨2, 1, 2, 16, Sample.digest, [0x62], [], [], []⟩]
  dependencies := [⟨2, 1⟩, ⟨1, 2⟩]
  exports := [⟨1, 0, [0x74]⟩, ⟨1, 0, [0x73]⟩]
  imports := [⟨2, 1, 0, 0, [0x73], [0x73]⟩, ⟨2, 0, 0, 0, [0x73], [0x74]⟩]
  resources := [⟨7, 0, 1, 1, 1, 3, 1, Sample.digest⟩, ⟨7, 1, 1, 1, 1, 3, 1, Sample.digest⟩]
  bindings := [⟨9, 2⟩, ⟨8, 2⟩]

theorem valid : source.Valid := by decide

end Unordered

/-- A manifest that is accepted with five tables out of order or with repeated keys, and with
bindings of slots that it does not declare. -/
theorem unordered_manifest_accepted : ∃ bytes tables,
    encode (List.replicate 600 0) Unordered.source = .ok (bytes, 600) ∧
    (decode (some (bytes.take 600)) .zero).1 = .ok ∧
    (decode (some (bytes.take 600)) .zero).2.Reads tables ∧
    tables.map (decode (some (bytes.take 600)) .zero).2.string = Unordered.source ∧
    (¬Unordered.source.dependencies.Pairwise fun a b =>
      (compare a.consumerNodeId b.consumerNodeId).then
        (compare a.providerNodeId b.providerNodeId) = .lt) ∧
    (¬Unordered.source.exports.Pairwise fun a b =>
      (compare a.nodeId b.nodeId).then (compare a.name b.name) = .lt) ∧
    (¬Unordered.source.imports.Pairwise fun a b =>
      (compare a.consumerNodeId b.consumerNodeId).then
        (compare a.consumerName b.consumerName) = .lt) ∧
    (¬Unordered.source.resources.Pairwise fun a b => compare a.slotId b.slotId = .lt) ∧
    (¬Unordered.source.bindings.Pairwise fun a b =>
      (compare a.slotId b.slotId).then (compare a.nodeId b.nodeId) = .lt) ∧
    ∀ b ∈ Unordered.source.bindings, ∀ r ∈ Unordered.source.resources, r.slotId ≠ b.slotId := by
  have hsize : sourceSize Unordered.source = some 600 := by decide
  have hlength : 600 ≤ (List.replicate 600 (0 : UInt8)).length := length_replicate.ge
  have hencode := encode_eq_ok.mpr ⟨hsize, hlength, rfl⟩
  obtain ⟨haccepted, tables, hreads, hmap⟩ :=
    (encoded_of_encode hencode).decode_ok Unordered.valid .zero
  exact ⟨_, tables, hencode, haccepted, hreads, hmap, by decide, by decide, by decide, by decide,
    by decide, by decide⟩

end Kobox.Manifest
