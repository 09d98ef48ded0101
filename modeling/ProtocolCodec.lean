import ProtocolCodec.Emission.Report
import ProtocolCodec.Main
import ProtocolCodec.Sample
import ProtocolCodec.Proofs.Codec.RoundTrip
import ProtocolCodec.Proofs.Model.RoundTrip
import ProtocolCodec.Proofs.Lowering.Agreement
import ProtocolCodec.Proofs.Lowering.Boxing
import ProtocolCodec.Proofs.Inheritance.Hierarchy
import ProtocolCodec.Proofs.Inheritance.PlainRecursion
import ProtocolCodec.Proofs.Emission.Runs
import ProtocolCodec.Proofs.Codec.Library
import ProtocolCodec.Proofs.Binary64
import ProtocolCodec.Proofs.Codec.NormalForm
import ProtocolCodec.Proofs.Codec.Generated
import ProtocolCodec.Proofs.Sample
import ProtocolCodec.Proofs.Lowering.Dependence
import ProtocolCodec.Proofs.Lowering.Spellings
import ProtocolCodec.Proofs.Codec.Enumerations
import ProtocolCodec.Proofs.Emission.Exclusion
import ProtocolCodec.Proofs.Emission.Duplicates
import ProtocolCodec.Proofs.Codec.Identifiers
import ProtocolCodec.Proofs.Codec.DeclaredKeys
import ProtocolCodec.Proofs.Sample.DeclaredKeys
import ProtocolCodec.Proofs.Command
import ProtocolCodec.Proofs.Model.MemberOrder
import ProtocolCodec.Proofs.Codec.NestedArrays
import ProtocolCodec.Proofs.Lowering.AliasChains
import ProtocolCodec.Proofs.Codec.Integers
import ProtocolCodec.Proofs.Codec.Literals
import ProtocolCodec.Proofs.Naming
import ProtocolCodec.Proofs.Emission.Comments
