import TermScene.CommandLine.Server
import TermScene.Editor.Session
import TermScene.Main
import TermScene.Proofs.Color.Resolution
import TermScene.Proofs.CommandLine.Failing
import TermScene.Proofs.Diagnostic.Excerpt
import TermScene.Proofs.Editor.ErrorRange
import TermScene.Proofs.Editor.Ignored
import TermScene.Proofs.Editor.Publications
import TermScene.Proofs.Editor.Quotes
import TermScene.Proofs.Editor.Touching
import TermScene.Proofs.Editor.Warnings
import TermScene.Proofs.Playback.Plan
import TermScene.Proofs.Playback.Restored
import TermScene.Proofs.Playback.Uncolored
import TermScene.Proofs.Program.EarliestError
import TermScene.Proofs.Program.Exactness
import TermScene.Proofs.Program.Failure
import TermScene.Proofs.Program.Finish
import TermScene.Proofs.Program.Layout
import TermScene.Proofs.Program.Progress
import TermScene.Proofs.Program.Returns
import TermScene.Proofs.Raster.Disc
import TermScene.Proofs.Raster.Plot
import TermScene.Proofs.Scene.Coverage
import TermScene.Proofs.Scene.Inks
import TermScene.Proofs.Scene.Reuse
import TermScene.Proofs.Scene.Safety
import TermScene.Proofs.SourceError.StrayCharacter
import TermScene.Proofs.Terminal.Redraw
