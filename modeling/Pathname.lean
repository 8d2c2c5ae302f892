import Pathname.CasePolicy
import Pathname.CaseRule
import Pathname.Compare
import Pathname.Error
import Pathname.Extension
import Pathname.Glob.Language
import Pathname.Glob.Matcher
import Pathname.Glob.Token
import Pathname.Host
import Pathname.Host.Ipv4
import Pathname.Host.Ipv6
import Pathname.Host.RegisteredName
import Pathname.Join
import Pathname.NameFilter
import Pathname.Normal
import Pathname.PathPart
import Pathname.Query
import Pathname.Quoted
import Pathname.Root
import Pathname.Segments
import Pathname.Separator
import Pathname.Session
import Pathname.Style
import Pathname.Text
import Pathname.Transform
import Pathname.Unicode.Blank
import Pathname.Unicode.CaseTable
import Pathname.Unicode.CodeRange
import Pathname.Unicode.Lowercase
import Pathname.Unicode.Printable
import Pathname.Unicode.Uppercase
import Pathname.Proofs.AddressCounting
import Pathname.Proofs.AddressGrammar
import Pathname.Proofs.CaseEquivalence
import Pathname.Proofs.ContainmentOrder
import Pathname.Proofs.EndSeparator
import Pathname.Proofs.EqualityInNormalForm
import Pathname.Proofs.ExtensionCut
import Pathname.Proofs.ExtensionPattern
import Pathname.Proofs.ExtensionTests
import Pathname.Proofs.FilterErrors
import Pathname.Proofs.Fixpoint
import Pathname.Proofs.InterchangeableSeparators
import Pathname.Proofs.JoinAssoc
import Pathname.Proofs.JoinRoot
import Pathname.Proofs.LooserCase
import Pathname.Proofs.LostRuns
import Pathname.Proofs.MalformedRoots
import Pathname.Proofs.NameFaults
import Pathname.Proofs.NulRejection
import Pathname.Proofs.ParentDirectory
import Pathname.Proofs.PathSlices
import Pathname.Proofs.PrintedSeparator
import Pathname.Proofs.RootKept
import Pathname.Proofs.RootLocality
import Pathname.Proofs.SafeJoin
import Pathname.Proofs.SystemStyle
import Pathname.Proofs.FirstOccurrence
import Pathname.Proofs.TokenScan
import Pathname.Proofs.TokenSequence
import Pathname.Proofs.SearchRounds
import Pathname.Proofs.Diagnostics
import Pathname.Unicode.Hidden
import Pathname.Collapse
import Pathname.Proofs.CollapsePasses
import Pathname.Proofs.StackMachine
