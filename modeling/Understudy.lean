import Understudy.Main
import Understudy.Provider.Scripted
import Understudy.Proofs.Outline
import Understudy.Proofs.Links
import Understudy.Proofs.Initialization
import Understudy.Proofs.Conservation
import Understudy.Proofs.FileTree
import Understudy.Proofs.Operations
import Understudy.Proofs.Preservation
import Understudy.Proofs.Grammar
import Understudy.Proofs.Rendering
import Understudy.Proofs.Resolution
import Understudy.Proofs.Fatal
import Understudy.Proofs.Quotation
import Understudy.Proofs.Draws
import Understudy.Proofs.Membership
import Understudy.Proofs.Readback
import Understudy.Proofs.Replacement
import Understudy.Proofs.Listing
import Understudy.Proofs.Writing
import Understudy.Proofs.Delivery
import Understudy.Proofs.Matching
import Understudy.Proofs.Rerun
import Understudy.Proofs.Escaping
import Understudy.Proofs.Words
import Understudy.Proofs.Exactness
import Understudy.Proofs.Values
import Understudy.Proofs.NamedFields
import Understudy.Proofs.Warnings
import Understudy.Proofs.LineEnds
import Understudy.Proofs.Schedule
import Understudy.Proofs.Accounting
import Understudy.Proofs.SecondConstant
import Understudy.Proofs.Dump
