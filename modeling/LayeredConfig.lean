import LayeredConfig.Binding
import LayeredConfig.Filter.Action
import LayeredConfig.Filter.Kinds
import LayeredConfig.Format.KeyValue
import LayeredConfig.Format.Toml.Reading
import LayeredConfig.Provider.Files
import LayeredConfig.Resolver.Rule
import LayeredConfig.Session
import LayeredConfig.Source.Arguments
import LayeredConfig.Source.Environment
import LayeredConfig.Source.Lookup
import LayeredConfig.Proofs.SourceSet.Replacement
import LayeredConfig.Proofs.Store.Course
import LayeredConfig.Proofs.Store.Published
import LayeredConfig.Proofs.Store.Access
import LayeredConfig.Proofs.Store.Edits
import LayeredConfig.Proofs.Evaluator.Following
import LayeredConfig.Proofs.Live.Isolation
import LayeredConfig.Proofs.Evaluator.Reference
import LayeredConfig.Proofs.Evaluator.Substitution
import LayeredConfig.Proofs.Evaluator.Dialogue
import LayeredConfig.Proofs.Evaluator.Bounds
import LayeredConfig.Proofs.Evaluator.Cycles
import LayeredConfig.Proofs.Evaluator.Masking
import LayeredConfig.Proofs.SourceSet.Highest
import LayeredConfig.Proofs.SourceSet.Precedence
import LayeredConfig.Proofs.View.Reading
import LayeredConfig.Proofs.View.Agreement
import LayeredConfig.Proofs.Live.Reading
import LayeredConfig.Proofs.Snapshot.Difference
import LayeredConfig.Proofs.Store.Story
import LayeredConfig.Proofs.Store.Writing
import LayeredConfig.Proofs.Live.Calls
import LayeredConfig.Proofs.Live.Readings
import LayeredConfig.Proofs.Context.Registering
import LayeredConfig.Proofs.Provider.Files
import LayeredConfig.Proofs.Context.Failing
import LayeredConfig.Proofs.Live.Events
import LayeredConfig.Proofs.Live.Superseded
import LayeredConfig.Proofs.Live.Binding
import LayeredConfig.Proofs.Secrecy.Alike
import LayeredConfig.Proofs.Secrecy.Concealment
import LayeredConfig.Proofs.Secrecy.Steps
import LayeredConfig.Proofs.Evaluator.Lifting
import LayeredConfig.Proofs.Secrecy.Work
import LayeredConfig.Proofs.Secrecy.Noninterference
import LayeredConfig.Proofs.Live.Calm
import LayeredConfig.Proofs.Live.Coupling
import LayeredConfig.Proofs.Hiding.Snapshots
import LayeredConfig.Proofs.Hiding.Steps
import LayeredConfig.Proofs.Hiding.Runs
import LayeredConfig.Proofs.Placeholder.Slices
import LayeredConfig.Proofs.Placeholder.Nesting
import LayeredConfig.Proofs.Evaluator.Escaping
import LayeredConfig.Proofs.Live.FailedReload
import LayeredConfig.Proofs.Snapshot.Exactness
import LayeredConfig.Proofs.SourceSet.Rebuilding
import LayeredConfig.Proofs.Snapshot.Composition
import LayeredConfig.Proofs.Store.Anonymity
import LayeredConfig.Proofs.Live.Undisturbed
import LayeredConfig.Proofs.Live.Splitting
import LayeredConfig.Proofs.Store.Registration
import LayeredConfig.Proofs.Live.Refreshing
import LayeredConfig.Proofs.Filter.Running
import LayeredConfig.Proofs.View.Notes
import LayeredConfig.Proofs.Format.Retraction
import LayeredConfig.Proofs.Source.Arguments
import LayeredConfig.Proofs.Source.Environment
import LayeredConfig.Proofs.Format.TableOrder
import LayeredConfig.Proofs.Format.Flattening
import LayeredConfig.Proofs.Provider.Loading
import LayeredConfig.Proofs.Live.Unwritable
import LayeredConfig.Proofs.Live.Watching
