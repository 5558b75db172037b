import Mpxcast.Core.PubSub
import Mpxcast.Core.LinkedHeap
import Mpxcast.Input.RtlSource
import Mpxcast.Input.RtlQueue
import Mpxcast.Core.TransportStream
import Mpxcast.Stream.MuxMpegts
import Mpxcast.Stream.MpegtsRoundTrip
import Mpxcast.Core.RationalClock
import Mpxcast.Stream.MpegtsStream
import Mpxcast.Core.InbandMetadata
import Mpxcast.Stream.Icy
import Mpxcast.Stream.MuxWav
import Mpxcast.Stream.Client
import Mpxcast.Stream.IcyRoundTrip
import Mpxcast.Core.ShiftRegister
import Mpxcast.Rds.BlockSync
import Mpxcast.Core.SyndromeDecoding
import Mpxcast.Rds.Codewords
import Mpxcast.Rds.CleanStream
import Mpxcast.Core.BoundedSelection
import Mpxcast.Rds.ErrorCorrection
import Mpxcast.Core.SlidingCount
import Mpxcast.Rds.BitSteps
import Mpxcast.Core.RecentWindow
import Mpxcast.Rds.LockPeriods
import Mpxcast.Core.Reassembly
import Mpxcast.Core.CFloat
import Mpxcast.Rds.Parser
import Mpxcast.Rds.Radiotext
import Mpxcast.Rds.ProgramIdentity
import Mpxcast.Core.TrimmedAssembly
import Mpxcast.Rds.ProgramService
import Mpxcast.Rds.SyncLoss
import Mpxcast.Core.LastMaximum
import Mpxcast.Rds.RadiotextQuality
import Mpxcast.Core.LinkedQueue
import Mpxcast.Core.Registry
import Mpxcast.Stream.Session
import Mpxcast.Stream.IcyTitles
import Mpxcast.Stream.Packing
import Mpxcast.Stream.Server
import Mpxcast.Stream.ServerQueue
import Mpxcast.Stream.ServerRun
import Mpxcast.Stream.Rejection
import Mpxcast.Stream.Progress
import Mpxcast.Stream.Lifecycle
import Mpxcast.Stream.FanOut
import Mpxcast.Core.Pacer
import Mpxcast.Stream.Pacing
import Mpxcast.Core.NumberText
import Mpxcast.Stream.HttpRequest
import Mpxcast.Stream.FrequencyText
import Mpxcast.Core.ClockRecovery
import Mpxcast.Dsp.RdsDemod
import Mpxcast.Dsp.BiphaseDecoding
import Mpxcast.Dsp.CarrierPhase
import Mpxcast.Core.Framing
import Mpxcast.Dsp.RdsFrontEnd
import Mpxcast.Dsp.RdsFraming
import Mpxcast.Core.DelayLine
import Mpxcast.Core.Convolution
import Mpxcast.Core.ScratchWindow
import Mpxcast.Dsp.Fir
import Mpxcast.Dsp.FirStreaming
import Mpxcast.Dsp.FirSpecialized
import Mpxcast.Input.RtlIqDecimator
import Mpxcast.Input.IqDecimation
import Mpxcast.Core.ToneDoubler
import Mpxcast.Dsp.FmStereo
import Mpxcast.Dsp.PilotDoubler
import Mpxcast.Dsp.StereoSeparation
import Mpxcast.Core.CStream
import Mpxcast.Input.FileReplay
import Mpxcast.Audio.Pcm
import Mpxcast.Core.Causal
import Mpxcast.Core.OnePole
import Mpxcast.Dsp.Deemphasis
import Mpxcast.Dsp.FmMono
import Mpxcast.Dsp.FmStereoReceiver
import Mpxcast.Dsp.StereoCompatibility
import Mpxcast.Core.RcNetwork
import Mpxcast.Dsp.DeemphasisResponse
import Mpxcast.Core.ArctanPolynomial
import Mpxcast.Core.PlaneAngle
import Mpxcast.Dsp.FmDiscriminator
import Mpxcast.Dsp.FmDemodulation
import Mpxcast.Dsp.FmQuality
import Mpxcast.Dsp.FmPipeline
import Mpxcast.Dsp.FmQualityReadings
import Mpxcast.Stream.Reception
import Mpxcast.Core.Crc
import Mpxcast.Core.ProgramTables
import Mpxcast.Stream.Listener
import Mpxcast.Dsp.RdsLink
import Mpxcast.Rds.BurstStream
import Mpxcast.Stream.OnAirTitle
