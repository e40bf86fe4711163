import SyntheticAccess.AccessFlags
import SyntheticAccess.AccessFlags.Text
import SyntheticAccess.AccessorClass
import SyntheticAccess.BinaryName
import SyntheticAccess.ClassDecl
import SyntheticAccess.ClassVersion
import SyntheticAccess.Description
import SyntheticAccess.Document
import SyntheticAccess.Draft
import SyntheticAccess.ErasedSignature
import SyntheticAccess.Event
import SyntheticAccess.Failure
import SyntheticAccess.ForwardCode
import SyntheticAccess.Host
import SyntheticAccess.Listing
import SyntheticAccess.Member
import SyntheticAccess.MethodTable
import SyntheticAccess.MethodTable.Entries
import SyntheticAccess.Outcome
import SyntheticAccess.Primitive
import SyntheticAccess.Proofs.Access
import SyntheticAccess.Proofs.AccessorNames
import SyntheticAccess.Proofs.Ancestry
import SyntheticAccess.Proofs.Bundles
import SyntheticAccess.Proofs.CandidateOrder
import SyntheticAccess.Proofs.Candidates
import SyntheticAccess.Proofs.Choices
import SyntheticAccess.Proofs.ClosedForm
import SyntheticAccess.Proofs.Descriptions
import SyntheticAccess.Proofs.Descriptors
import SyntheticAccess.Proofs.Drafting
import SyntheticAccess.Proofs.Emission
import SyntheticAccess.Proofs.EventLog
import SyntheticAccess.Proofs.Faithfulness
import SyntheticAccess.Proofs.FlagText
import SyntheticAccess.Proofs.Independence
import SyntheticAccess.Proofs.Inheritance
import SyntheticAccess.Proofs.ListingLines
import SyntheticAccess.Proofs.Locals
import SyntheticAccess.Proofs.NameGrammar
import SyntheticAccess.Proofs.Names
import SyntheticAccess.Proofs.Packages
import SyntheticAccess.Proofs.Persistence
import SyntheticAccess.Proofs.Reachability
import SyntheticAccess.Proofs.Refusals
import SyntheticAccess.Proofs.Repetition
import SyntheticAccess.Proofs.RequestOrder
import SyntheticAccess.Proofs.Reuse
import SyntheticAccess.Proofs.Selection
import SyntheticAccess.Proofs.Sessions
import SyntheticAccess.Proofs.Sides
import SyntheticAccess.Proofs.SingleLines
import SyntheticAccess.Proofs.Typing
import SyntheticAccess.Registry
import SyntheticAccess.Request
import SyntheticAccess.Resolution
import SyntheticAccess.Session
import SyntheticAccess.Session.Command
import SyntheticAccess.Settings
import SyntheticAccess.SigType
import SyntheticAccess.StackKind
import SyntheticAccess.Store
import SyntheticAccess.Stored.Classes
import SyntheticAccess.Stored.Members
import SyntheticAccess.Stored.Types
import SyntheticAccess.Text.Alphabetic
import SyntheticAccess.Text.Blank
import SyntheticAccess.Text.CodePoint
import SyntheticAccess.Text.Identifier
import SyntheticAccess.Text.Numeral
import SyntheticAccess.Text.Numeric
