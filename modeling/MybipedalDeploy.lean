import MybipedalDeploy.Control.Accesses
import MybipedalDeploy.Control.Bounds
import MybipedalDeploy.Control.Callbacks
import MybipedalDeploy.Control.Consistent
import MybipedalDeploy.Control.ControlModule
import MybipedalDeploy.Control.Envelope
import MybipedalDeploy.Control.History
import MybipedalDeploy.Control.JointIndex
import MybipedalDeploy.Control.JointStates
import MybipedalDeploy.Control.LatestCommand
import MybipedalDeploy.Control.LowPass
import MybipedalDeploy.Control.MatchedByName
import MybipedalDeploy.Control.Merging
import MybipedalDeploy.Control.Naming
import MybipedalDeploy.Control.Offsets
import MybipedalDeploy.Control.Overshoot
import MybipedalDeploy.Control.PDController
import MybipedalDeploy.Control.ProjectedGravity
import MybipedalDeploy.Control.RLController
import MybipedalDeploy.Control.Restart
import MybipedalDeploy.Control.RingTrace
import MybipedalDeploy.Control.Freezing
import MybipedalDeploy.Control.Traces
import MybipedalDeploy.Control.TraceFiles
import MybipedalDeploy.Control.RotationTools
import MybipedalDeploy.Control.StateMachine
import MybipedalDeploy.Control.Throttle
import MybipedalDeploy.Control.Transition
import MybipedalDeploy.Imu.BurstDetection
import MybipedalDeploy.Imu.Crc
import MybipedalDeploy.Imu.CrcBurst
import MybipedalDeploy.Imu.FrameChange
import MybipedalDeploy.Imu.ImuDriver
import MybipedalDeploy.Imu.ImuFrameFix
import MybipedalDeploy.Imu.ImuObservation
import MybipedalDeploy.Imu.ObservationPath
import MybipedalDeploy.Imu.PublishLoop
import MybipedalDeploy.Imu.Reassembly
import MybipedalDeploy.Imu.Seqlock
import MybipedalDeploy.Imu.Ticks
import MybipedalDeploy.Imu.Wire
import MybipedalDeploy.JointDriver.Acknowledge
import MybipedalDeploy.JointDriver.Addressing
import MybipedalDeploy.JointDriver.Attachment
import MybipedalDeploy.JointDriver.CanBus
import MybipedalDeploy.JointDriver.CanFrame
import MybipedalDeploy.JointDriver.CommandEnvelope
import MybipedalDeploy.JointDriver.CommandPath
import MybipedalDeploy.JointDriver.Dating
import MybipedalDeploy.JointDriver.Delivery
import MybipedalDeploy.JointDriver.FailedStart
import MybipedalDeploy.JointDriver.Feedback
import MybipedalDeploy.JointDriver.FeedbackPath
import MybipedalDeploy.JointDriver.JointCommand
import MybipedalDeploy.JointDriver.JointDriverModule
import MybipedalDeploy.JointDriver.MitFrame
import MybipedalDeploy.JointDriver.Ordering
import MybipedalDeploy.JointDriver.PublishLoop
import MybipedalDeploy.JointDriver.Quantisation
import MybipedalDeploy.JointDriver.Registration
import MybipedalDeploy.JointDriver.Requests
import MybipedalDeploy.JointDriver.RobstrideMotor
import MybipedalDeploy.JointDriver.Routing
import MybipedalDeploy.JointDriver.Sampling
import MybipedalDeploy.JointDriver.Shutdown
import MybipedalDeploy.JointDriver.SocketCan
import MybipedalDeploy.JointDriver.Startup
import MybipedalDeploy.JointDriver.StatePath
import MybipedalDeploy.JointDriver.StopAll
import MybipedalDeploy.JointDriver.Transmission
import MybipedalDeploy.JointDriver.Wakeup
import MybipedalDeploy.JointDriver.WellFormed
import MybipedalDeploy.JointDriver.XyberController
import MybipedalDeploy.JoyStick.Indices
import MybipedalDeploy.JoyStick.Isolation
import MybipedalDeploy.JoyStick.Joy
import MybipedalDeploy.JoyStick.JoyStickModule
import MybipedalDeploy.JoyStick.JoyVelLimiter
import MybipedalDeploy.JoyStick.Mirror
import MybipedalDeploy.JoyStick.Mirroring
import MybipedalDeploy.JoyStick.Plugging
import MybipedalDeploy.JoyStick.Tracking
import MybipedalDeploy.JoyStick.VelocityLimits
import MybipedalDeploy.Library.AssociationList
import MybipedalDeploy.Library.BoxProgram
import MybipedalDeploy.Library.Clamp
import MybipedalDeploy.Library.CriticalSection
import MybipedalDeploy.Library.DigitalLine
import MybipedalDeploy.Library.FractionalPart
import MybipedalDeploy.Library.LastWrite
import MybipedalDeploy.Library.Painting
import MybipedalDeploy.Library.Pursuit
import MybipedalDeploy.Library.Quantizer
import MybipedalDeploy.Library.Relay
import MybipedalDeploy.Library.RingBuffer
import MybipedalDeploy.Library.Rotation
import MybipedalDeploy.Library.Runs
import MybipedalDeploy.Library.SecondOrder
import MybipedalDeploy.Library.SlidingWindow
import MybipedalDeploy.Library.SlotBuffer
import MybipedalDeploy.Library.Staircase
import MybipedalDeploy.Library.StreamBlocks
import MybipedalDeploy.Library.StreamScan
import MybipedalDeploy.Library.Tabulated
import MybipedalDeploy.Library.Threads
import MybipedalDeploy.Library.VersionedCell
import MybipedalDeploy.Library.XorLinear
import MybipedalDeploy.Messages
import MybipedalDeploy.Oled.Blanking
import MybipedalDeploy.Oled.DrawCircle
import MybipedalDeploy.Oled.DrawLine
import MybipedalDeploy.Oled.LogScroll
import MybipedalDeploy.Oled.Menu
import MybipedalDeploy.Oled.OledDriver
import MybipedalDeploy.Oled.OledModule
import MybipedalDeploy.Oled.Shapes
import MybipedalDeploy.Oled.EventQueue
import MybipedalDeploy.Oled.Glass
import MybipedalDeploy.Oled.InputThread
import MybipedalDeploy.Oled.Legible
import MybipedalDeploy.Oled.Text
import MybipedalDeploy.Oled.UiRenderer
import MybipedalDeploy.Robot.FrameEnvelope
import MybipedalDeploy.Sim.ClosedLoop
import MybipedalDeploy.Sim.MotorCommand
import MybipedalDeploy.Sim.SimModule
import MybipedalDeploy.Sim.Teardown
import MybipedalDeploy.Sim.TorqueBound
