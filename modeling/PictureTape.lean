import PictureTape.Canvas.Failing
import PictureTape.Canvas.Trace
import PictureTape.Folder
import PictureTape.Main
import PictureTape.Panel.Placement
import PictureTape.Script
import PictureTape.Proofs.Agreement
import PictureTape.Proofs.PaintTable
import PictureTape.Proofs.Encoding
import PictureTape.Proofs.Reading
import PictureTape.Proofs.Spelling
import PictureTape.Proofs.Acceptance
import PictureTape.Proofs.RoundTrip
import PictureTape.Proofs.Reencoding
import PictureTape.Proofs.Merging
import PictureTape.Proofs.Lengths
import PictureTape.Proofs.Flattening
import PictureTape.Proofs.Recording
import PictureTape.Proofs.Replay
import PictureTape.Proofs.Brackets
import PictureTape.Proofs.Copying
import PictureTape.Proofs.Extension
import PictureTape.Proofs.FirstFailure
import PictureTape.Proofs.MarkerText
import PictureTape.Proofs.OpenSaves
import PictureTape.Proofs.Spaces
import PictureTape.Proofs.Spots
import PictureTape.Proofs.Places
import PictureTape.Proofs.Nesting
import PictureTape.Proofs.Sizes
import PictureTape.Proofs.FirstUse
import PictureTape.Proofs.WrongSizes
import PictureTape.Proofs.LeadingZeros
import PictureTape.Proofs.ZeroSigns
import PictureTape.Proofs.Borrowing
import PictureTape.Proofs.Guarded
import PictureTape.Proofs.Fields
