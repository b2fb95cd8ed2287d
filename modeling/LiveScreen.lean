import LiveScreen.Text.Space
import LiveScreen.Text.Lower
import LiveScreen.Text.Quoted
import LiveScreen.Text.Record
import LiveScreen.Text.Sorted
import LiveScreen.Decimal.Notation
import LiveScreen.Decimal.Literal
import LiveScreen.Duration
import LiveScreen.Table
import LiveScreen.Value
import LiveScreen.Registry
import LiveScreen.Layout.Catalog
import LiveScreen.Animation.Builtin
import LiveScreen.Animation.Describe
import LiveScreen.Animation.Recipe
import LiveScreen.Action
import LiveScreen.Plugins
import LiveScreen.Scene.Tasks
import LiveScreen.Scene.Tree
import LiveScreen.Scene.Describe
import LiveScreen.Markup.Build
import LiveScreen.Loader.Config
import LiveScreen.Loader.Forest
import LiveScreen.Loader.Step
import LiveScreen.Loader.Describe
import LiveScreen.Session.Screens
import LiveScreen.Session.Graphs
import LiveScreen.Session.Services
import LiveScreen.Session.Describe
import LiveScreen.Proofs.Scene.Push
import LiveScreen.Proofs.Scene.Due
import LiveScreen.Proofs.Scene.Overtaking
import LiveScreen.Proofs.Scene.Mirror
import LiveScreen.Proofs.Scene.Deferred
import LiveScreen.Proofs.Loader.Established
import LiveScreen.Proofs.Loader.Retries
import LiveScreen.Proofs.Loader.Initialized
import LiveScreen.Proofs.Scene.Fed
import LiveScreen.Proofs.Scene.Firing
import LiveScreen.Proofs.Scene.Snapshots
import LiveScreen.Proofs.Scene.LateHooks
import LiveScreen.Proofs.Loader.Hooks
import LiveScreen.Proofs.Loader.Storing
import LiveScreen.Proofs.Loader.Succeeding
import LiveScreen.Proofs.Loader.InOrder
import LiveScreen.Proofs.Loader.Alone
import LiveScreen.Proofs.Markup.Materialized
import LiveScreen.Proofs.Markup.Erasure
import LiveScreen.Proofs.Pool.Draining
import LiveScreen.Proofs.Scene.Deeds
import LiveScreen.Proofs.Loader.Apart
import LiveScreen.Proofs.Loader.Cancelled
import LiveScreen.Proofs.Animation.Written
import LiveScreen.Proofs.Layout.Lengths
import LiveScreen.Proofs.Markup.Leaves
import LiveScreen.Proofs.Animation.Durations
import LiveScreen.Proofs.Registry.Calls
import LiveScreen.Proofs.Decimal.Readers
import LiveScreen.Proofs.Animation.Listed
import LiveScreen.Proofs.Registry.Spelling
