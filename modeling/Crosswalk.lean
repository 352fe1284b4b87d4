import Crosswalk.Callback
import Crosswalk.Converter
import Crosswalk.Proofs.Accounting
import Crosswalk.Proofs.BuildOnce
import Crosswalk.Proofs.CacheContents
import Crosswalk.Proofs.CallPipeline
import Crosswalk.Proofs.CallRedaction
import Crosswalk.Proofs.Concealment
import Crosswalk.Proofs.ConversionTable
import Crosswalk.Proofs.Culprits
import Crosswalk.Proofs.DestinationIndependence
import Crosswalk.Proofs.ExactCoercion
import Crosswalk.Proofs.FailureCondition
import Crosswalk.Proofs.FieldByField
import Crosswalk.Proofs.FieldOrder
import Crosswalk.Proofs.ForeignRecords
import Crosswalk.Proofs.HandingOver
import Crosswalk.Proofs.Instants
import Crosswalk.Proofs.MirrorImages
import Crosswalk.Proofs.Noninterference
import Crosswalk.Proofs.OmissionCauses
import Crosswalk.Proofs.Ranges
import Crosswalk.Proofs.RedactionFrame
import Crosswalk.Proofs.RuleSessions
import Crosswalk.Proofs.SecondRoundTrip
import Crosswalk.Proofs.Warnings
import Crosswalk.Schema.Describe
import Crosswalk.Time.Stored
import Crosswalk.Proofs.CoercionPaths
import Crosswalk.Proofs.TimeCodec
import Crosswalk.Proofs.ListCalls
import Crosswalk.Proofs.Accessors
import Crosswalk.Proofs.Interchange
import Crosswalk.Proofs.NamesAndPositions
