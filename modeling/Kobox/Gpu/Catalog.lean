import Kobox.Library.Stores

/-!
# Command sets (`protocol/generated/include/kobox2/gpu_drm_*_layout.h`)

The generated layouts give each command set its commands, the contracts of their requests, and
the sizes of its records. A contract's record id 0 means that the command has no inline record.
-/

namespace Kobox.Gpu

structure RequestContract where
  commandId : UInt32
  inlineRecordId : UInt32
  inlineSize : UInt32
  spanCapacity : ℕ
  attachmentCapacity : ℕ
  deriving DecidableEq, Repr

/-- The directions are 1 for input, 2 for output and 3 for both. -/
structure SpanContract where
  commandId : UInt32
  argumentId : UInt32
  direction : UInt32
  minimum : UInt32
  maximum : UInt32
  recordId : UInt32
  recordSize : UInt32
  deriving DecidableEq, Repr

structure AttachmentContract where
  commandId : UInt32
  argumentId : UInt32
  role : UInt32
  ownership : UInt32
  optional : UInt32
  objectClass : UInt32
  deriving DecidableEq, Repr

structure InlineContract where
  recordId : UInt32
  size : UInt32
  deriving DecidableEq, Repr

/-- The contracts of a command set. -/
structure Catalog where
  requests : List RequestContract
  spans : List SpanContract
  attachments : List AttachmentContract

def commandOfId {α : Type} (commands : List α) (id : UInt32) : Option α :=
  if id = 0 then none else commands[id.toNat - 1]?

def coreSetId : UInt32 := 1

inductive CoreCommand where
  | version | getUnique | getClient | getStats | setVersion | getCap | setClientCap
  | setClientName | gemClose | gemFlink | gemOpen | gemChangeHandle | primeHandleToAttachment
  | primeAttachmentToHandle | syncobjCreate | syncobjDestroy | syncobjHandleToAttachment
  | syncobjAttachmentToHandle | syncobjWait | syncobjReset | syncobjSignal | syncobjTimelineWait
  | syncobjQuery | syncobjTransfer | syncobjTimelineSignal | syncobjEventArm | pollEvents
  | readEvents
  deriving DecidableEq, Repr

def CoreCommand.all : List CoreCommand :=
  [.version, .getUnique, .getClient, .getStats, .setVersion, .getCap, .setClientCap,
    .setClientName, .gemClose, .gemFlink, .gemOpen, .gemChangeHandle, .primeHandleToAttachment,
    .primeAttachmentToHandle, .syncobjCreate, .syncobjDestroy, .syncobjHandleToAttachment,
    .syncobjAttachmentToHandle, .syncobjWait, .syncobjReset, .syncobjSignal,
    .syncobjTimelineWait, .syncobjQuery, .syncobjTransfer, .syncobjTimelineSignal,
    .syncobjEventArm, .pollEvents, .readEvents]

def CoreCommand.ofId : UInt32 → Option CoreCommand := commandOfId CoreCommand.all

def coreRequests : List RequestContract :=
  [⟨1, 102, 16, 3, 0⟩, ⟨2, 104, 8, 1, 0⟩, ⟨3, 106, 8, 0, 0⟩, ⟨4, 0, 0, 1, 0⟩, ⟨5, 110, 16, 0, 0⟩,
    ⟨6, 111, 8, 0, 0⟩, ⟨7, 113, 16, 0, 0⟩, ⟨8, 114, 8, 1, 0⟩, ⟨9, 115, 8, 0, 0⟩,
    ⟨10, 115, 8, 0, 0⟩, ⟨11, 117, 8, 0, 0⟩, ⟨12, 119, 8, 0, 0⟩, ⟨13, 120, 8, 0, 0⟩,
    ⟨14, 121, 8, 0, 1⟩, ⟨15, 122, 8, 0, 0⟩, ⟨16, 115, 8, 0, 0⟩, ⟨17, 124, 16, 0, 0⟩,
    ⟨18, 125, 16, 0, 1⟩, ⟨19, 126, 16, 1, 0⟩, ⟨20, 129, 8, 1, 0⟩, ⟨21, 129, 8, 1, 0⟩,
    ⟨22, 126, 16, 1, 0⟩, ⟨23, 131, 8, 1, 0⟩, ⟨24, 132, 32, 0, 0⟩, ⟨25, 129, 8, 1, 0⟩,
    ⟨26, 133, 16, 0, 1⟩, ⟨27, 116, 4, 0, 0⟩, ⟨28, 104, 8, 1, 0⟩]

def coreSpans : List SpanContract :=
  [⟨1, 2, 2, 0, 4096, 101, 1⟩, ⟨1, 3, 2, 0, 4096, 101, 1⟩, ⟨1, 4, 2, 0, 4096, 101, 1⟩,
    ⟨2, 2, 2, 0, 4096, 101, 1⟩, ⟨4, 2, 2, 0, 15, 108, 16⟩, ⟨8, 2, 1, 1, 64, 101, 1⟩,
    ⟨19, 2, 1, 1, 65536, 128, 4⟩, ⟨20, 2, 1, 1, 65536, 128, 4⟩, ⟨21, 2, 1, 1, 65536, 128, 4⟩,
    ⟨22, 2, 1, 1, 65536, 130, 16⟩, ⟨23, 2, 3, 1, 65536, 130, 16⟩, ⟨25, 2, 1, 1, 65536, 130, 16⟩,
    ⟨28, 2, 2, 1, 512, 101, 1⟩]

def coreAttachments : List AttachmentContract :=
  [⟨14, 2, 1, 2, 0, 2⟩, ⟨18, 2, 1, 2, 0, 6⟩, ⟨18, 2, 1, 2, 0, 3⟩, ⟨26, 2, 1, 2, 0, 4⟩]

def coreCatalog : Catalog := ⟨coreRequests, coreSpans, coreAttachments⟩

def coreRecords : List (UInt32 × UInt32) :=
  [(101, 1), (102, 16), (103, 32), (104, 8), (105, 8), (106, 8), (107, 40), (108, 16), (109, 8),
    (110, 16), (111, 8), (112, 8), (113, 16), (114, 8), (115, 8), (116, 4), (117, 8), (118, 16),
    (119, 8), (120, 8), (121, 8), (122, 8), (123, 8), (124, 16), (125, 16), (126, 16), (127, 8),
    (128, 4), (129, 8), (130, 16), (131, 8), (132, 32), (133, 16)]

def modeSetId : UInt32 := 2

inductive ModeCommand where
  | getMagic | authMagic | setMaster | dropMaster | waitVblank | crtcGetSequence
  | crtcQueueSequence | getResources | getCrtc | setCrtc | cursor | getGamma | setGamma
  | getEncoder | getConnector | attachMode | detachMode | getProperty | setProperty
  | getPropertyBlob | getFb | addFb | removeFb | pageFlip | dirtyFb | createDumb | mapDumb
  | destroyDumb | getPlaneResources | getPlane | setPlane | addFb2 | objectGetProperties
  | objectSetProperty | cursor2 | atomic | createPropertyBlob | destroyPropertyBlob | createLease
  | listLessees | getLease | revokeLease | getFb2 | closeFb
  deriving DecidableEq, Repr

def ModeCommand.all : List ModeCommand :=
  [.getMagic, .authMagic, .setMaster, .dropMaster, .waitVblank, .crtcGetSequence,
    .crtcQueueSequence, .getResources, .getCrtc, .setCrtc, .cursor, .getGamma, .setGamma,
    .getEncoder, .getConnector, .attachMode, .detachMode, .getProperty, .setProperty,
    .getPropertyBlob, .getFb, .addFb, .removeFb, .pageFlip, .dirtyFb, .createDumb, .mapDumb,
    .destroyDumb, .getPlaneResources, .getPlane, .setPlane, .addFb2, .objectGetProperties,
    .objectSetProperty, .cursor2, .atomic, .createPropertyBlob, .destroyPropertyBlob,
    .createLease, .listLessees, .getLease, .revokeLease, .getFb2, .closeFb]

def ModeCommand.ofId : UInt32 → Option ModeCommand := commandOfId ModeCommand.all

def modeRequests : List RequestContract :=
  [⟨1, 0, 0, 0, 0⟩, ⟨2, 104, 4, 0, 0⟩, ⟨3, 0, 0, 0, 0⟩, ⟨4, 0, 0, 0, 0⟩, ⟨5, 106, 24, 0, 0⟩,
    ⟨6, 108, 16, 0, 0⟩, ⟨7, 110, 32, 0, 0⟩, ⟨8, 112, 16, 4, 0⟩, ⟨9, 115, 16, 1, 0⟩,
    ⟨10, 117, 32, 2, 0⟩, ⟨11, 118, 40, 0, 0⟩, ⟨12, 119, 16, 3, 0⟩, ⟨13, 119, 16, 3, 0⟩,
    ⟨14, 122, 16, 0, 0⟩, ⟨15, 124, 32, 3, 0⟩, ⟨16, 127, 16, 1, 0⟩, ⟨17, 127, 16, 1, 0⟩,
    ⟨18, 128, 24, 2, 0⟩, ⟨19, 131, 24, 0, 0⟩, ⟨20, 132, 16, 1, 0⟩, ⟨21, 134, 16, 0, 0⟩,
    ⟨22, 136, 36, 0, 0⟩, ⟨23, 138, 16, 0, 0⟩, ⟨24, 139, 32, 0, 0⟩, ⟨25, 140, 24, 1, 0⟩,
    ⟨26, 142, 16, 0, 0⟩, ⟨27, 144, 8, 0, 0⟩, ⟨28, 102, 4, 0, 0⟩, ⟨29, 146, 8, 1, 0⟩,
    ⟨30, 147, 16, 1, 0⟩, ⟨31, 149, 56, 0, 0⟩, ⟨32, 150, 108, 0, 0⟩, ⟨33, 151, 24, 1, 0⟩,
    ⟨34, 152, 32, 0, 0⟩, ⟨35, 153, 44, 0, 0⟩, ⟨36, 154, 32, 3, 0⟩, ⟨37, 157, 16, 1, 0⟩,
    ⟨38, 138, 16, 0, 0⟩, ⟨39, 158, 16, 1, 0⟩, ⟨40, 160, 8, 1, 0⟩, ⟨41, 162, 16, 1, 0⟩,
    ⟨42, 163, 8, 0, 0⟩, ⟨43, 134, 16, 0, 0⟩, ⟨44, 138, 16, 0, 0⟩]

def modeSpans : List SpanContract :=
  [⟨8, 2, 2, 0, 65536, 102, 4⟩, ⟨8, 3, 2, 0, 65536, 102, 4⟩, ⟨8, 4, 2, 0, 65536, 102, 4⟩,
    ⟨8, 5, 2, 0, 65536, 102, 4⟩, ⟨9, 2, 2, 1, 1, 114, 68⟩, ⟨10, 2, 1, 0, 65536, 102, 4⟩,
    ⟨10, 3, 1, 0, 1, 114, 68⟩, ⟨12, 2, 2, 1, 65536, 120, 2⟩, ⟨12, 3, 2, 1, 65536, 120, 2⟩,
    ⟨12, 4, 2, 1, 65536, 120, 2⟩, ⟨13, 2, 1, 1, 65536, 120, 2⟩, ⟨13, 3, 1, 1, 65536, 120, 2⟩,
    ⟨13, 4, 1, 1, 65536, 120, 2⟩, ⟨15, 2, 2, 0, 4096, 114, 68⟩, ⟨15, 3, 2, 0, 65536, 125, 16⟩,
    ⟨15, 4, 2, 0, 65536, 102, 4⟩, ⟨16, 2, 1, 1, 1, 114, 68⟩, ⟨17, 2, 1, 1, 1, 114, 68⟩,
    ⟨18, 2, 2, 0, 65536, 103, 8⟩, ⟨18, 3, 2, 0, 65536, 129, 40⟩, ⟨20, 2, 2, 0, 16777216, 101, 1⟩,
    ⟨25, 2, 1, 0, 256, 141, 16⟩, ⟨29, 2, 2, 0, 65536, 102, 4⟩, ⟨30, 2, 2, 0, 65536, 102, 4⟩,
    ⟨33, 2, 2, 0, 65536, 125, 16⟩, ⟨36, 2, 1, 1, 65536, 155, 16⟩, ⟨36, 3, 1, 1, 65536, 156, 32⟩,
    ⟨36, 4, 2, 0, 65536, 165, 16⟩, ⟨37, 2, 1, 0, 16777216, 101, 1⟩, ⟨39, 2, 1, 0, 65536, 102, 4⟩,
    ⟨40, 2, 2, 0, 65536, 161, 8⟩, ⟨41, 2, 2, 0, 65536, 102, 4⟩]

def modeCatalog : Catalog := ⟨modeRequests, modeSpans, []⟩

def modeRecords : List (UInt32 × UInt32) :=
  [(101, 1), (102, 4), (103, 8), (104, 4), (105, 8), (106, 24), (107, 16), (108, 16), (109, 24),
    (110, 32), (111, 8), (112, 16), (113, 40), (114, 68), (115, 16), (116, 40), (117, 32),
    (118, 40), (119, 16), (120, 2), (121, 8), (122, 16), (123, 32), (124, 32), (125, 16),
    (126, 56), (127, 16), (128, 24), (129, 40), (130, 56), (131, 24), (132, 16), (133, 8),
    (134, 16), (135, 40), (136, 36), (137, 16), (138, 16), (139, 32), (140, 24), (141, 16),
    (142, 16), (143, 16), (144, 8), (145, 24), (146, 8), (147, 16), (148, 36), (149, 56),
    (150, 108), (151, 24), (152, 32), (153, 44), (154, 32), (155, 16), (156, 32), (157, 16),
    (158, 16), (159, 16), (160, 8), (161, 8), (162, 16), (163, 8), (164, 16), (165, 16),
    (166, 16)]

def virtgpuSetId : UInt32 := 3

inductive VirtgpuCommand where
  | map | execbuffer | getparam | resourceCreate | resourceInfo | transferFromHost3d
  | transferToHost3d | wait | getCaps | resourceCreateBlob | contextInit
  deriving DecidableEq, Repr

def VirtgpuCommand.all : List VirtgpuCommand :=
  [.map, .execbuffer, .getparam, .resourceCreate, .resourceInfo, .transferFromHost3d,
    .transferToHost3d, .wait, .getCaps, .resourceCreateBlob, .contextInit]

def VirtgpuCommand.ofId : UInt32 → Option VirtgpuCommand := commandOfId VirtgpuCommand.all

def virtgpuRequests : List RequestContract :=
  [⟨1, 101, 8, 0, 0⟩, ⟨2, 103, 24, 4, 1⟩, ⟨3, 108, 8, 0, 0⟩, ⟨4, 110, 56, 0, 0⟩,
    ⟨5, 112, 8, 0, 0⟩, ⟨6, 114, 44, 0, 0⟩, ⟨7, 114, 44, 0, 0⟩, ⟨8, 115, 8, 0, 0⟩,
    ⟨9, 116, 16, 1, 0⟩, ⟨10, 118, 32, 1, 0⟩, ⟨11, 120, 24, 1, 0⟩]

def virtgpuSpans : List SpanContract :=
  [⟨2, 2, 1, 1, 16777216, 104, 1⟩, ⟨2, 3, 1, 0, 65536, 105, 4⟩, ⟨2, 4, 1, 0, 65536, 106, 16⟩,
    ⟨2, 5, 1, 0, 65536, 106, 16⟩, ⟨9, 2, 2, 0, 1048576, 104, 1⟩, ⟨10, 2, 1, 0, 16777216, 104, 1⟩,
    ⟨11, 2, 1, 0, 64, 104, 1⟩]

def virtgpuAttachments : List AttachmentContract :=
  [⟨2, 6, 1, 2, 1, 3⟩]

def virtgpuCatalog : Catalog := ⟨virtgpuRequests, virtgpuSpans, virtgpuAttachments⟩

def virtgpuRecords : List (UInt32 × UInt32) :=
  [(101, 8), (102, 24), (103, 24), (104, 1), (105, 4), (106, 16), (107, 8), (108, 8), (109, 8),
    (110, 56), (111, 16), (112, 8), (113, 16), (114, 44), (115, 8), (116, 16), (117, 8),
    (118, 32), (119, 8), (120, 24)]

def i915SetId : UInt32 := 4

inductive I915Command where
  | getparam | query | getAperture | contextGetparam | gemCreate | gemCreateExt | gemBusy
  | gemMadvise | gemWait | gemSetDomain | gemSetCaching | gemMmapOffset | contextCreate
  | contextSetparam | contextDestroy | execbuffer
  deriving DecidableEq, Repr

def I915Command.all : List I915Command :=
  [.getparam, .query, .getAperture, .contextGetparam, .gemCreate, .gemCreateExt, .gemBusy,
    .gemMadvise, .gemWait, .gemSetDomain, .gemSetCaching, .gemMmapOffset, .contextCreate,
    .contextSetparam, .contextDestroy, .execbuffer]

def I915Command.ofId : UInt32 → Option I915Command := commandOfId I915Command.all

def i915Requests : List RequestContract :=
  [⟨1, 101, 8, 0, 0⟩, ⟨2, 103, 16, 2, 0⟩, ⟨3, 107, 8, 0, 0⟩, ⟨4, 109, 16, 0, 0⟩,
    ⟨5, 111, 16, 0, 0⟩, ⟨6, 112, 24, 1, 0⟩, ⟨7, 115, 8, 0, 0⟩, ⟨8, 116, 12, 0, 0⟩,
    ⟨9, 117, 16, 0, 0⟩, ⟨10, 118, 12, 0, 0⟩, ⟨11, 119, 8, 0, 0⟩, ⟨12, 121, 16, 0, 0⟩,
    ⟨13, 124, 16, 2, 0⟩, ⟨14, 125, 16, 2, 0⟩, ⟨15, 123, 8, 0, 0⟩, ⟨16, 128, 32, 2, 0⟩]

def i915Spans : List SpanContract :=
  [⟨2, 2, 3, 0, 64, 104, 24⟩, ⟨2, 3, 3, 0, 16777216, 105, 1⟩, ⟨6, 2, 1, 0, 64, 114, 4⟩,
    ⟨13, 2, 1, 0, 64, 126, 32⟩, ⟨13, 3, 1, 0, 4096, 127, 4⟩, ⟨14, 2, 1, 0, 64, 126, 32⟩,
    ⟨14, 3, 1, 0, 4096, 127, 4⟩, ⟨16, 2, 3, 1, 8192, 129, 40⟩, ⟨16, 3, 1, 0, 65536, 130, 8⟩]

def i915Catalog : Catalog := ⟨i915Requests, i915Spans, []⟩

def i915Records : List (UInt32 × UInt32) :=
  [(101, 8), (102, 8), (103, 16), (104, 24), (105, 1), (106, 16), (107, 8), (108, 16), (109, 16),
    (110, 8), (111, 16), (112, 24), (113, 16), (114, 4), (115, 8), (116, 12), (117, 16),
    (118, 12), (119, 8), (120, 24), (121, 16), (122, 24), (123, 8), (124, 16), (125, 16),
    (126, 32), (127, 4), (128, 32), (129, 40), (130, 8), (131, 8)]

/-! ### The amdgpu set -/

def amdgpuSetId : UInt32 := 5

inductive AmdgpuCommand where
  | gemCreate | gemMmap | context | boList | cs | info | gemMetadata | gemWaitIdle | gemVa
  | waitCs | gemOp | gemUserptr | waitFences | vm | fenceToHandle | sched | userq | userqSignal
  | userqWait | gemListHandles
  deriving DecidableEq, Repr

def AmdgpuCommand.all : List AmdgpuCommand :=
  [.gemCreate, .gemMmap, .context, .boList, .cs, .info, .gemMetadata, .gemWaitIdle, .gemVa,
    .waitCs, .gemOp, .gemUserptr, .waitFences, .vm, .fenceToHandle, .sched, .userq, .userqSignal,
    .userqWait, .gemListHandles]

def AmdgpuCommand.ofId : UInt32 → Option AmdgpuCommand := commandOfId AmdgpuCommand.all

def amdgpuRequests : List InlineContract :=
  [⟨101, 32⟩, ⟨103, 8⟩, ⟨105, 16⟩, ⟨107, 16⟩, ⟨110, 16⟩, ⟨122, 32⟩, ⟨139, 288⟩, ⟨141, 8⟩,
    ⟨143, 56⟩, ⟨144, 24⟩, ⟨146, 24⟩, ⟨150, 24⟩, ⟨152, 8⟩, ⟨154, 8⟩, ⟨156, 32⟩, ⟨158, 16⟩,
    ⟨159, 64⟩, ⟨164, 16⟩, ⟨167, 24⟩, ⟨170, 8⟩]

def amdgpuContracts : List RequestContract :=
  [⟨1, 101, 32, 0, 0⟩, ⟨2, 103, 8, 0, 0⟩, ⟨3, 105, 16, 0, 0⟩, ⟨4, 107, 16, 1, 0⟩,
    ⟨5, 110, 16, 1, 0⟩, ⟨6, 122, 32, 1, 0⟩, ⟨7, 139, 288, 0, 0⟩, ⟨8, 141, 8, 0, 0⟩,
    ⟨9, 143, 56, 1, 0⟩, ⟨10, 144, 24, 0, 0⟩, ⟨11, 146, 24, 1, 0⟩, ⟨12, 150, 24, 0, 1⟩,
    ⟨13, 152, 8, 1, 0⟩, ⟨14, 154, 8, 0, 0⟩, ⟨15, 156, 32, 0, 0⟩, ⟨16, 158, 16, 0, 1⟩,
    ⟨17, 159, 64, 1, 0⟩, ⟨18, 164, 16, 3, 0⟩, ⟨19, 167, 24, 5, 0⟩, ⟨20, 170, 8, 1, 0⟩]

def amdgpuSpans : List SpanContract :=
  [⟨4, 2, 1, 0, 65536, 108, 8⟩, ⟨5, 2, 1, 1, 64, 111, 32⟩, ⟨5, 2, 1, 1, 64, 112, 8⟩,
    ⟨5, 2, 1, 1, 64, 113, 24⟩, ⟨5, 2, 1, 1, 64, 114, 4⟩, ⟨5, 2, 1, 1, 64, 115, 4⟩,
    ⟨5, 2, 1, 1, 64, 116, 8⟩, ⟨5, 2, 1, 1, 64, 117, 24⟩, ⟨5, 2, 1, 1, 64, 118, 16⟩,
    ⟨5, 2, 1, 1, 64, 119, 16⟩, ⟨5, 2, 1, 1, 64, 120, 32⟩, ⟨6, 2, 2, 1, 1048576, 124, 4⟩,
    ⟨6, 2, 2, 1, 1048576, 125, 8⟩, ⟨6, 2, 2, 1, 1048576, 126, 1⟩, ⟨6, 2, 2, 1, 1048576, 127, 32⟩,
    ⟨6, 2, 2, 1, 1048576, 128, 24⟩, ⟨6, 2, 2, 1, 1048576, 129, 96⟩, ⟨6, 2, 2, 1, 1048576, 130, 8⟩,
    ⟨6, 2, 2, 1, 1048576, 131, 200⟩, ⟨6, 2, 2, 1, 1048576, 132, 36⟩,
    ⟨6, 2, 2, 1, 1048576, 133, 436⟩, ⟨6, 2, 2, 1, 1048576, 134, 8⟩, ⟨6, 2, 2, 1, 1048576, 135, 16⟩,
    ⟨6, 2, 2, 1, 1048576, 136, 192⟩, ⟨6, 2, 2, 1, 1048576, 137, 16⟩, ⟨6, 2, 2, 1, 1048576, 138, 16⟩,
    ⟨9, 2, 1, 0, 65536, 165, 4⟩, ⟨11, 2, 2, 0, 65536, 147, 32⟩, ⟨11, 2, 2, 0, 65536, 148, 32⟩,
    ⟨13, 2, 1, 1, 65536, 151, 24⟩, ⟨17, 2, 1, 0, 1, 161, 16⟩, ⟨17, 2, 1, 0, 1, 162, 8⟩,
    ⟨17, 2, 1, 0, 1, 163, 8⟩, ⟨18, 2, 1, 0, 65536, 165, 4⟩, ⟨18, 3, 1, 0, 65536, 165, 4⟩,
    ⟨18, 4, 1, 0, 65536, 165, 4⟩, ⟨19, 2, 1, 0, 65536, 165, 4⟩, ⟨19, 3, 1, 0, 65536, 166, 16⟩,
    ⟨19, 4, 1, 0, 65536, 165, 4⟩, ⟨19, 5, 1, 0, 65536, 165, 4⟩, ⟨19, 6, 2, 0, 65536, 168, 16⟩,
    ⟨20, 2, 2, 0, 65536, 171, 40⟩]

def amdgpuAttachments : List AttachmentContract :=
  [⟨12, 2, 1, 2, 0, 1⟩, ⟨16, 2, 1, 1, 0, 5⟩]

/-- The layout has these contracts, but the code checks the requests of the set by hand. -/
def amdgpuCatalog : Catalog := ⟨amdgpuContracts, amdgpuSpans, amdgpuAttachments⟩

def amdgpuRecords : List (UInt32 × UInt32) :=
  [(101, 32), (102, 8), (103, 8), (104, 24), (105, 16), (106, 32), (107, 16), (108, 8), (109, 8),
    (110, 16), (111, 32), (112, 8), (113, 24), (114, 4), (115, 4), (116, 8), (117, 24),
    (118, 16), (119, 16), (120, 32), (121, 8), (122, 32), (123, 16), (124, 4), (125, 8),
    (126, 1), (127, 32), (128, 24), (129, 96), (130, 8), (131, 200), (132, 36), (133, 436),
    (134, 8), (135, 16), (136, 192), (137, 16), (138, 16), (139, 288), (140, 280), (141, 8),
    (142, 8), (143, 56), (144, 24), (145, 8), (146, 24), (147, 32), (148, 32), (149, 16),
    (150, 24), (151, 24), (152, 8), (153, 8), (154, 8), (155, 8), (156, 32), (157, 8), (158, 16),
    (159, 64), (160, 8), (161, 16), (162, 8), (163, 8), (164, 16), (165, 4), (166, 16),
    (167, 24), (168, 16), (169, 8), (170, 8), (171, 40), (172, 8)]

end Kobox.Gpu
