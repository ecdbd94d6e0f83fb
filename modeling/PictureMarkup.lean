import PictureMarkup.Diagnostics.Text
import PictureMarkup.Path.Plot
import PictureMarkup.Main
import PictureMarkup.Recorder
import PictureMarkup.Proofs.Leaving
import PictureMarkup.Proofs.Actions
import PictureMarkup.Proofs.Grown
import PictureMarkup.Proofs.Nesting
import PictureMarkup.Proofs.Translation
import PictureMarkup.Proofs.Outcome
import PictureMarkup.Proofs.InStep
import PictureMarkup.Proofs.Placed
import PictureMarkup.Proofs.Exact
import PictureMarkup.Proofs.MatrixInEffect
import PictureMarkup.Proofs.Delivery
import PictureMarkup.Proofs.PassThrough
import PictureMarkup.Proofs.Routing
import PictureMarkup.Proofs.MaskTargets
import PictureMarkup.Proofs.LatestMatrix
import PictureMarkup.Proofs.Numeral
import PictureMarkup.Proofs.Reading
import PictureMarkup.Proofs.Printed
import PictureMarkup.Proofs.ColorForms
import PictureMarkup.Proofs.PathReading
import PictureMarkup.Proofs.Parts
import PictureMarkup.Proofs.Decoding
import PictureMarkup.Proofs.ReadBack
import PictureMarkup.Proofs.Replacing
import PictureMarkup.Proofs.Erasing
import PictureMarkup.Proofs.NestedPictures
import PictureMarkup.Proofs.IgnoredParts
import PictureMarkup.Proofs.Pruning
import PictureMarkup.Proofs.Visuals
import PictureMarkup.Proofs.DepthLimit
import PictureMarkup.Proofs.Tiles
import PictureMarkup.Proofs.Backgrounds
import PictureMarkup.Proofs.SoundTree
import PictureMarkup.Proofs.Locating
import PictureMarkup.Proofs.Jobs
import PictureMarkup.Proofs.Targets
import PictureMarkup.Proofs.DocumentsAtOnce
import PictureMarkup.Proofs.Completion
import PictureMarkup.Proofs.FirstFault
import PictureMarkup.Proofs.Keys
import PictureMarkup.Proofs.Layouts
import PictureMarkup.Proofs.ClosedScopes
import PictureMarkup.Proofs.InPaths
import PictureMarkup.Proofs.StylesRuns
import PictureMarkup.Proofs.Commented
import PictureMarkup.Proofs.Attributes
import PictureMarkup.Proofs.Resources
import PictureMarkup.Proofs.Escapes
import PictureMarkup.Proofs.Processing
import PictureMarkup.Proofs.KeptKeys
import PictureMarkup.Proofs.StylesMarkup
import PictureMarkup.Proofs.RelativeMatrices
import PictureMarkup.Proofs.GradientModes
import PictureMarkup.Proofs.Dashes
