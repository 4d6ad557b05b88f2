import AerialManipulator.PosControl.GroundIdle
import AerialManipulator.RateControl.RateAux
import AerialManipulator.Arm.ArmCache
import AerialManipulator.Uorb.DeviceMaster
import AerialManipulator.PosControl.DynamicCom
import AerialManipulator.Dataman.DatamanMap
import AerialManipulator.Mission.Partner
import AerialManipulator.Mission.Upload
import AerialManipulator.Mission.Download
import AerialManipulator.Ftp.Burst
import AerialManipulator.Ftp.ListDirectory
import AerialManipulator.Ftp.Errno
import AerialManipulator.Ftp.Paths
import AerialManipulator.Param.Autosave
import AerialManipulator.Param.BsonBackends
import AerialManipulator.Param.BsonSafety
import AerialManipulator.Param.Find
import AerialManipulator.Param.Reboots
import AerialManipulator.Flash.FlashSearch
import AerialManipulator.Rc.Sumd
import AerialManipulator.Rc.Ghst
import AerialManipulator.Commander.DisabledLoss
import AerialManipulator.Commander.FailsafeFlags
import AerialManipulator.Commander.ManualControl
import AerialManipulator.Logger.LogRun
import AerialManipulator.WorkQueue.WorkQueue
import AerialManipulator.Navigator.MissionFeasibility
import AerialManipulator.Navigator.DoJump
import AerialManipulator.Navigator.ReadAhead
import AerialManipulator.Mavlink.Retransmission
import AerialManipulator.Mavlink.MavlinkParameters
import AerialManipulator.Px4io.RcFailsafe
import AerialManipulator.Px4io.MixerTick
import AerialManipulator.Mavlink.LogListing
import AerialManipulator.Mavlink.LogDownload
import AerialManipulator.Mavlink.UlogHandoff
import AerialManipulator.Splitter.Separation
import AerialManipulator.Bootloader.Transfer
import AerialManipulator.Sensors.Voting
import AerialManipulator.Rc.St24
import AerialManipulator.Rc.SbusRobust
import AerialManipulator.Rc.DsmAddress
import AerialManipulator.LandDetector.Landing
import AerialManipulator.Uorb.SubscriptionInterval
import AerialManipulator.PosControl.TakeoffRamp
import AerialManipulator.PosControl.ThrustAttitude
import AerialManipulator.PosControl.HoverThrust
import AerialManipulator.RateControl.TorqueBounds
import AerialManipulator.AttControl.YawWeight
import AerialManipulator.CollisionPrevention.ObstacleInput
import AerialManipulator.MotionPlanning.Synchronization
import AerialManipulator.MotionPlanning.ManualVelocitySmoothingZ
import AerialManipulator.Navigator.LandStart
import AerialManipulator.Mixer.ChunkedLoading
import AerialManipulator.Mixer.MultirotorMixer
import AerialManipulator.Navigator.PointInPolygon
import AerialManipulator.Navigator.FenceDecision
import AerialManipulator.Logger.LogWriterMavlink
import AerialManipulator.Mavlink.Timesync
import AerialManipulator.Sensors.StaleData
import AerialManipulator.Tunes.Tunes
import AerialManipulator.Px4io.PwmRates
import AerialManipulator.Uorb.IntrusiveSortedList
import AerialManipulator.PosControl.ObserverError
import AerialManipulator.RateControl.ObserverError
