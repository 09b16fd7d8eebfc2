import ModalKeys.Host.Recording
import ModalKeys.Keymap.Outline
import ModalKeys.Main
import ModalKeys.Modal.Standalone
import ModalKeys.Proofs.Editor.Keystrokes
import ModalKeys.Proofs.Editor.Protocol
import ModalKeys.Proofs.Editor.Settled
import ModalKeys.Proofs.Keymap.Merging
import ModalKeys.Proofs.Keymap.Refinement
import ModalKeys.Proofs.Modal.Step
import ModalKeys.Text.Quoted
import ModalKeys.Proofs.Keymap.Overlay
import ModalKeys.Proofs.Keymap.PlainConfig
import ModalKeys.Proofs.Modal.Layers
import ModalKeys.Proofs.Modal.Freeing
import ModalKeys.Proofs.Keymap.Soundness
import ModalKeys.Proofs.Keymap.References
import ModalKeys.Proofs.Modal.References
import ModalKeys.Proofs.Keymap.Layering
import ModalKeys.Proofs.Keymap.Serving
import ModalKeys.Proofs.Keymap.Regions
import ModalKeys.Proofs.Editor.Layering
import ModalKeys.Proofs.Editor.BackReferences
import ModalKeys.Proofs.Keymap.Parentage
import ModalKeys.Proofs.Keymap.SideBySide
import ModalKeys.Proofs.Editor.Faults
import ModalKeys.Proofs.Keymap.Copying
import ModalKeys.Proofs.Editor.History
import ModalKeys.Proofs.Editor.Isolation
import ModalKeys.Proofs.Editor.LastLayer
import ModalKeys.Proofs.Editor.Reapplying
import ModalKeys.Proofs.Editor.Leaves
import ModalKeys.Proofs.Editor.Timers
import ModalKeys.Proofs.Modal.Segmentation
import ModalKeys.Proofs.Keymap.Termination
import ModalKeys.Proofs.KeySpec.Grammar
import ModalKeys.Proofs.KeySpec.Offset
import ModalKeys.Proofs.Keymap.Conservation
import ModalKeys.Proofs.Keymap.Diagnosis
import ModalKeys.Proofs.Editor.Callbacks
import ModalKeys.Proofs.Editor.Searching
import ModalKeys.Proofs.Modal.Midway
import ModalKeys.Proofs.Keymap.Reordering
import ModalKeys.Proofs.Editor.Actions
import ModalKeys.Proofs.Terminal.SearchMemory
import ModalKeys.Proofs.Builtin.EnterMode
import ModalKeys.Proofs.Terminal.Redrawing
import ModalKeys.Proofs.Text.KeyPath
