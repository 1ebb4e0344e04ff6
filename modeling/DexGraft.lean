import DexGraft.Edit.Blueprint
import DexGraft.Edit.Editor
import DexGraft.Main
import DexGraft.Proofs.Code.Spelling
import DexGraft.Proofs.Code.Splice
import DexGraft.Proofs.Code.TypeList
import DexGraft.Proofs.Code.Widening
import DexGraft.Proofs.Edit.Joining
import DexGraft.Proofs.Edit.Undo
import DexGraft.Proofs.Fingerprint.Latest
import DexGraft.Proofs.Fingerprint.Match
import DexGraft.Proofs.Fingerprint.OpenPlaces
import DexGraft.Proofs.Fingerprint.Order
import DexGraft.Proofs.Fingerprint.Pattern
import DexGraft.Proofs.Fingerprint.Portrait
import DexGraft.Proofs.Fingerprint.Window
import DexGraft.Proofs.Patch.Anchor
import DexGraft.Proofs.Patch.Bounds
import DexGraft.Proofs.Patch.Exact
import DexGraft.Proofs.Patch.Registration
import DexGraft.Proofs.Patch.Running
import DexGraft.Proofs.Patch.SharedIds
import DexGraft.Proofs.Patch.Sharing
import DexGraft.Proofs.Patch.Standard.SearchBar
import DexGraft.Proofs.Patch.Standard.VideoHooks
import DexGraft.Proofs.Patch.Standard.Widening
import DexGraft.Proofs.Smali.Layout
import DexGraft.Proofs.Smali.Listing
import DexGraft.Proofs.Smali.Literal
import DexGraft.Proofs.Smali.Template
import DexGraft.Proofs.Smali.WellFormed
import DexGraft.Proofs.Storage.Saving
import DexGraft.Proofs.Walk
import DexGraft.Storage.Code
